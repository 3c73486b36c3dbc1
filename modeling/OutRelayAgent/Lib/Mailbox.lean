import Mathlib.Logic.Function.Basic
import Mathlib.Tactic.Common

/-!
# Tables of one-place channels

A map from keys to channels that hold at most one value, with sends that never block: a send to a
channel that is full is dropped. `owner` and `sent` record what happened: under which key a channel
was registered, and what was sent to it for which key, dropped or not.

* `Recorded`: what is sent to a channel is for the key it was registered under. `register`,
  `remove`, `receive`, and a `send` for the key of the channel keep it.
* `Single`: the discipline of looking an entry up and removing it in one step. A channel that was
  taken out of the map (`Taken`) is unused, so its send finds room; no channel is sent to twice.
* `Untouched`: a channel nobody has received from holds what was sent first.
-/

namespace OutRelayAgent.Lib

/-- A map from keys to channels that hold at most one value. -/
structure Mailboxes (ID α : Type*) where
  pending : ID → Option ℕ
  buf : ℕ → Option α
  next : ℕ
  /-- The key a channel was registered under. -/
  owner : ℕ → Option ID
  /-- What was sent to a channel, and for which key. -/
  sent : ℕ → List (ID × α)

namespace Mailboxes

variable {ID α : Type*}

def empty : Mailboxes ID α := ⟨fun _ => none, fun _ => none, 0, fun _ => none, fun _ => []⟩

/-- A new channel under `id`, in place of the one that is there. -/
def register [DecidableEq ID] (m : Mailboxes ID α) (id : ID) : Mailboxes ID α :=
  { m with
    pending := Function.update m.pending id (some m.next)
    owner := Function.update m.owner m.next (some id)
    next := m.next + 1 }

def remove [DecidableEq ID] (m : Mailboxes ID α) (id : ID) : Mailboxes ID α :=
  { m with pending := Function.update m.pending id none }

/-- A send for `id` that does not block. -/
def send (m : Mailboxes ID α) (ch : ℕ) (id : ID) (x : α) : Mailboxes ID α :=
  { m with
    buf := Function.update m.buf ch (m.buf ch <|> some x)
    sent := Function.update m.sent ch (m.sent ch ++ [(id, x)]) }

/-- Take the value out of a channel. -/
def receive (m : Mailboxes ID α) (ch : ℕ) : Mailboxes ID α :=
  { m with buf := Function.update m.buf ch none }

variable {m : Mailboxes ID α} {id : ID} {ch ch' : ℕ} {x : α}

/-! ## One operation on one cell -/

theorem send_of_ne (hne : ch' ≠ ch) :
    (m.send ch id x).buf ch' = m.buf ch' ∧ (m.send ch id x).sent ch' = m.sent ch' := by
  simp [send, hne]

theorem send_sent_self : (m.send ch id x).sent ch = m.sent ch ++ [(id, x)] := by
  simp [send]

theorem receive_of_ne (hne : ch' ≠ ch) : (m.receive ch).buf ch' = m.buf ch' := by
  simp [receive, hne]

theorem receive_self : (m.receive ch).buf ch = none := by
  simp [receive]

section Keys

variable [DecidableEq ID] {id' : ID}

theorem register_pending_cases (h : (m.register id).pending id' = some ch) :
    (id' = id ∧ ch = m.next) ∨ (id' ≠ id ∧ m.pending id' = some ch) := by
  by_cases hid : id' = id
  · subst hid
    exact .inl ⟨rfl, by simpa [register] using h.symm⟩
  · exact .inr ⟨hid, by simpa [register, hid] using h⟩

theorem register_pending_of_ne (hid : id' ≠ id) :
    (m.register id).pending id' = m.pending id' := by
  simp [register, hid]

theorem remove_pending_cases (h : (m.remove id).pending id' = some ch) :
    id' ≠ id ∧ m.pending id' = some ch := by
  by_cases hid : id' = id
  · subst hid
    simp [remove] at h
  · exact ⟨hid, by simpa [remove, hid] using h⟩

theorem remove_pending_self : (m.remove id).pending id = none := by
  simp [remove]

theorem remove_pending_of_ne (hid : id' ≠ id) : (m.remove id).pending id' = m.pending id' := by
  simp [remove, hid]

theorem register_owner_cases (h : (m.register id).owner ch = some id') :
    (ch = m.next ∧ id' = id) ∨ m.owner ch = some id' := by
  by_cases hne : ch = m.next
  · subst hne
    exact .inl ⟨rfl, by simpa [register] using h.symm⟩
  · exact .inr (by simpa [register, hne] using h)

theorem register_owner_self : (m.register id).owner m.next = some id := by
  simp [register]

end Keys

/-! ## What a table records -/

/-- What is sent to a channel is for the key it was registered under. -/
structure Recorded (m : Mailboxes ID α) : Prop where
  pending : ∀ id ch, m.pending id = some ch → m.owner ch = some id
  owner : ∀ ch id, m.owner ch = some id → ch < m.next
  sent : ∀ ch id x, (id, x) ∈ m.sent ch → m.owner ch = some id
  fresh : ∀ ch, m.next ≤ ch → m.sent ch = [] ∧ m.buf ch = none

theorem Recorded.empty : (Mailboxes.empty : Mailboxes ID α).Recorded :=
  ⟨nofun, nofun, nofun, fun _ _ => ⟨rfl, rfl⟩⟩

theorem Recorded.send (h : m.Recorded) (hch : m.owner ch = some id) (x : α) :
    (m.send ch id x).Recorded where
  pending := h.pending
  owner := h.owner
  sent ch' id' x' hx := by
    by_cases hne : ch' = ch
    · subst hne
      rw [send_sent_self, List.mem_append, List.mem_singleton] at hx
      rcases hx with hx | hx
      · exact h.sent ch' id' x' hx
      · cases hx
        exact hch
    · rw [(send_of_ne hne).2] at hx
      exact h.sent ch' id' x' hx
  fresh ch' hch' := by
    have hne : ch' ≠ ch := by
      rintro rfl
      exact absurd (h.owner ch' id hch) (Nat.not_lt.mpr hch')
    rw [(send_of_ne hne).1, (send_of_ne hne).2]
    exact h.fresh ch' hch'

theorem Recorded.receive (h : m.Recorded) (ch : ℕ) : (m.receive ch).Recorded where
  pending := h.pending
  owner := h.owner
  sent := h.sent
  fresh ch' hch' := by
    refine ⟨(h.fresh ch' hch').1, ?_⟩
    by_cases hne : ch' = ch
    · subst hne
      exact receive_self
    · rw [receive_of_ne hne]
      exact (h.fresh ch' hch').2

section Keys

variable [DecidableEq ID] {id' : ID}

theorem Recorded.register_owner (h : m.Recorded) (hch : m.owner ch = some id') :
    (m.register id).owner ch = some id' := by
  have hne : ch ≠ m.next := Nat.ne_of_lt (h.owner ch id' hch)
  simpa [Mailboxes.register, hne] using hch

theorem Recorded.register (h : m.Recorded) (id : ID) : (m.register id).Recorded where
  pending id' ch hch := by
    rcases register_pending_cases hch with ⟨rfl, rfl⟩ | ⟨-, hch⟩
    · exact register_owner_self
    · exact h.register_owner (h.pending id' ch hch)
  owner ch id' hch := by
    rcases register_owner_cases hch with ⟨rfl, -⟩ | hch
    · exact Nat.lt_succ_self _
    · exact Nat.lt_succ_of_lt (h.owner ch id' hch)
  sent ch id' x hx := h.register_owner (h.sent ch id' x hx)
  fresh ch hch := h.fresh ch (Nat.le_of_succ_le hch)

theorem Recorded.remove (h : m.Recorded) (id : ID) : (m.remove id).Recorded where
  pending id' ch hch := h.pending id' ch (remove_pending_cases hch).2
  owner := h.owner
  sent := h.sent
  fresh := h.fresh

end Keys

/-! ## Entries that are removed when they are looked up -/

/-- Nothing has been sent to a channel. -/
def Unused (m : Mailboxes ID α) (ch : ℕ) : Prop := m.sent ch = [] ∧ m.buf ch = none

/-- A channel in the map is unused, and none is used twice. -/
structure Single (m : Mailboxes ID α) : Prop extends m.Recorded where
  unused : ∀ id ch, m.pending id = some ch → m.Unused ch
  once : ∀ ch, (m.sent ch).length ≤ 1

/-- A channel that was taken out of the map, with the send for `id` still to come. -/
structure Taken (m : Mailboxes ID α) (ch : ℕ) (id : ID) : Prop where
  owner : m.owner ch = some id
  unused : m.Unused ch
  absent : ∀ id', m.pending id' ≠ some ch

theorem Single.empty : (Mailboxes.empty : Mailboxes ID α).Single :=
  ⟨.empty, nofun, fun _ => Nat.zero_le _⟩

theorem Single.send (h : m.Single) (ht : m.Taken ch id) (x : α) : (m.send ch id x).Single where
  toRecorded := h.toRecorded.send ht.owner x
  unused id' ch' hch' := by
    have hne : ch' ≠ ch := by
      rintro rfl
      exact ht.absent id' hch'
    rw [Unused, (send_of_ne hne).1, (send_of_ne hne).2]
    exact h.unused id' ch' hch'
  once ch' := by
    by_cases hne : ch' = ch
    · subst hne
      simp [send_sent_self, ht.unused.1]
    · rw [(send_of_ne hne).2]
      exact h.once ch'

theorem Unused.receive (h : m.Unused ch) (ch' : ℕ) : (m.receive ch').Unused ch := by
  refine ⟨h.1, ?_⟩
  by_cases hne : ch = ch'
  · subst hne
    exact receive_self
  · rw [receive_of_ne hne]
    exact h.2

theorem Single.receive (h : m.Single) (ch : ℕ) : (m.receive ch).Single where
  toRecorded := h.toRecorded.receive ch
  unused id ch' hch' := (h.unused id ch' hch').receive ch
  once := h.once

theorem Taken.send (h : m.Taken ch id) (hne : ch ≠ ch') (id' : ID) (x : α) :
    (m.send ch' id' x).Taken ch id where
  owner := h.owner
  unused := by
    rw [Unused, (send_of_ne hne).1, (send_of_ne hne).2]
    exact h.unused
  absent := h.absent

theorem Taken.receive (h : m.Taken ch id) (ch' : ℕ) : (m.receive ch').Taken ch id :=
  ⟨h.owner, h.unused.receive ch', h.absent⟩

section Keys

variable [DecidableEq ID]

theorem Single.register (h : m.Single) (id : ID) : (m.register id).Single where
  toRecorded := h.toRecorded.register id
  unused id' ch hch := by
    rcases register_pending_cases hch with ⟨-, rfl⟩ | ⟨-, hch⟩
    · exact h.fresh _ (Nat.le_refl _)
    · exact h.unused id' ch hch
  once := h.once

theorem Single.remove (h : m.Single) (id : ID) : (m.remove id).Single where
  toRecorded := h.toRecorded.remove id
  unused id' ch hch := h.unused id' ch (remove_pending_cases hch).2
  once := h.once

/-- Looking an entry up and removing it takes the channel out of the map. -/
theorem Single.taken (h : m.Single) (hch : m.pending id = some ch) : (m.remove id).Taken ch id where
  owner := h.pending id ch hch
  unused := h.unused id ch hch
  absent id' hch' := by
    obtain ⟨hid, hch'⟩ := remove_pending_cases hch'
    have howner := (h.pending id' ch hch').symm.trans (h.pending id ch hch)
    exact hid (Option.some.inj howner)

theorem Taken.register (h : m.Taken ch id) (hm : m.Recorded) (id' : ID) :
    (m.register id').Taken ch id where
  owner := hm.register_owner h.owner
  unused := h.unused
  absent id'' hch := by
    rcases register_pending_cases hch with ⟨-, rfl⟩ | ⟨-, hch⟩
    · exact absurd (hm.owner _ _ h.owner) (Nat.lt_irrefl _)
    · exact h.absent id'' hch

theorem Taken.remove (h : m.Taken ch id) (id' : ID) : (m.remove id').Taken ch id where
  owner := h.owner
  unused := h.unused
  absent id'' hch := h.absent id'' (remove_pending_cases hch).2

end Keys

/-! ## What was sent first -/

/-- Nobody has received from a channel: it holds what was sent first. -/
def Untouched (m : Mailboxes ID α) (ch : ℕ) : Prop := m.buf ch = (m.sent ch).head?.map Prod.snd

theorem send_head {y : ID × α} (h : (m.sent ch).head? = some y) (ch' : ℕ) (id : ID) (x : α) :
    ((m.send ch' id x).sent ch).head? = some y := by
  by_cases hne : ch = ch'
  · subst hne
    rw [send_sent_self, List.head?_append, h]
    rfl
  · rw [(send_of_ne hne).2]
    exact h

theorem Untouched.send (h : m.Untouched ch) (ch' : ℕ) (id : ID) (x : α) :
    (m.send ch' id x).Untouched ch := by
  unfold Untouched at h ⊢
  by_cases hne : ch = ch'
  · subst hne
    have hbuf : (m.send ch id x).buf ch = (m.buf ch <|> some x) := by simp [Mailboxes.send]
    rw [hbuf, send_sent_self, h]
    cases m.sent ch <;> rfl
  · rw [(send_of_ne hne).1, (send_of_ne hne).2]
    exact h

theorem Untouched.receive_of_ne (h : m.Untouched ch) (hne : ch ≠ ch') :
    (m.receive ch').Untouched ch := by
  unfold Untouched at h ⊢
  rw [Mailboxes.receive_of_ne hne]
  exact h

/-- The value in an untouched channel was sent first, and for the channel's own key. -/
theorem Untouched.head (h : m.Untouched ch) (hm : m.Recorded) (hch : m.owner ch = some id)
    (hx : m.buf ch = some x) : (m.sent ch).head? = some (id, x) := by
  unfold Untouched at h
  rw [hx] at h
  cases hs : m.sent ch with
  | nil => simp [hs] at h
  | cons y ys =>
    obtain ⟨id', x'⟩ := y
    obtain rfl : x = x' := by simpa [hs] using h
    have hown := hm.sent ch id' x (by simp [hs])
    rw [hch] at hown
    obtain rfl := Option.some.inj hown
    rfl

end Mailboxes

end OutRelayAgent.Lib
