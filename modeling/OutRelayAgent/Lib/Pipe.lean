import OutRelayAgent.Lib.Machine
import Mathlib.Data.List.Infix
import Mathlib.Tactic.Common

/-!
# The reliable byte pipe

The abstract purpose of a resumable stream, one direction of it: bytes come out in the order they
went in, none lost in between and none twice. A `Pipe` holds what its writer was told is accepted
and what its reader was given; that the second is a prefix of the first is a field, so no pipe
that loses, repeats or reorders bytes can be built.

The list lemmas are about a window `xs` of a log `w` that starts where the reader stands:
`r <+: w` and `xs <+: w.drop r.length`.
-/

namespace OutRelayAgent.Lib

variable {β : Type*}

section Window

variable {w r xs bs : List β}

/-- What has been read, followed by the window, is still a prefix of the log. -/
theorem append_window (hr : r <+: w) (hx : xs <+: w.drop r.length) : r ++ xs <+: w := by
  obtain ⟨t, rfl⟩ := hr
  rw [List.drop_left] at hx
  exact (List.prefix_append_right_inj r).mpr hx

/-- Reading `n` bytes off the front of the window moves the window along. -/
theorem window_drop {n : Nat} (hx : xs <+: w.drop r.length) (hn : n ≤ xs.length) :
    xs.drop n <+: w.drop (r ++ xs.take n).length := by
  have h := hx.drop n
  rwa [List.drop_drop, show r.length + n = (r ++ xs.take n).length by simp [hn]] at h

/-- The front of a window is the front of what it is a window of. -/
theorem window_take {n : Nat} {ys : List β} (hx : xs <+: ys) (hn : n ≤ xs.length) :
    ys.take n = xs.take n := by
  obtain ⟨t, rfl⟩ := hx
  exact List.take_append_of_le_length hn

/-- A window up to the end of the log stays one when both ends move. -/
theorem window_drop_eq {n : Nat} (hx : xs = w.drop r.length) (hn : n ≤ xs.length) :
    xs.drop n = w.drop (r ++ xs.take n).length := by
  have h : (r ++ xs.take n).length = r.length + n := by simp [hn]
  rw [h, ← List.drop_drop, ← hx]

/-- Appending to the log keeps every window of it. -/
theorem window_append (hx : xs <+: w.drop r.length) : xs <+: (w ++ bs).drop r.length :=
  hx.trans (List.IsPrefix.drop (List.prefix_append w bs) _)

/-- A window up to the end of the log grows with the log. -/
theorem window_append_eq (hr : r <+: w) (hx : xs = w.drop r.length) :
    xs ++ bs = (w ++ bs).drop r.length := by
  rw [List.drop_append_of_le_length hr.length_le, hx]

end Window

/-- What a writer was told is accepted, and what the reader has been given of it. -/
structure Pipe (β : Type*) where
  accepted : List β
  returned : List β
  /-- Exactly once, in order. -/
  ordered : returned <+: accepted

namespace Pipe

/-- `write` accepts bytes, `read` returns the next `n`. -/
inductive Act (β : Type*)
  | write (bs : List β)
  | read (n : Nat)

/-- The bytes accepted and not yet returned. -/
def pending (p : Pipe β) : List β := p.accepted.drop p.returned.length

/-- Accept more bytes. -/
def write (p : Pipe β) (bs : List β) : Pipe β where
  accepted := p.accepted ++ bs
  returned := p.returned
  ordered := p.ordered.trans (List.prefix_append _ _)

/-- Return the next `n` bytes. -/
def read (p : Pipe β) (n : Nat) : Pipe β where
  accepted := p.accepted
  returned := p.returned ++ p.pending.take n
  ordered := append_window p.ordered (List.take_prefix n _)

@[simp] theorem write_accepted (p : Pipe β) (bs : List β) :
    (p.write bs).accepted = p.accepted ++ bs := rfl

@[simp] theorem write_returned (p : Pipe β) (bs : List β) :
    (p.write bs).returned = p.returned := rfl

@[simp] theorem read_accepted (p : Pipe β) (n : Nat) : (p.read n).accepted = p.accepted := rfl

@[simp] theorem read_returned (p : Pipe β) (n : Nat) :
    (p.read n).returned = p.returned ++ p.pending.take n := rfl

/-- The pipe as a machine. A `read` past the pending bytes is not enabled. -/
def machine (β : Type*) : Machine (Pipe β) (Act β) where
  init := ⟨[], [], List.prefix_refl _⟩
  step p
    | .write bs => some (p.write bs)
    | .read n => if n ≤ p.pending.length then some (p.read n) else none

end Pipe

end OutRelayAgent.Lib
