import OutRelayAgent.Resume.Invariant

/-!
# Relay-mediated resume delivers exactly once

Every step keeps the invariant of `Invariant.lean` as long as a `ResumePayload` is taken with the
wrapper's `inner` on a closed connection (`settled`), so it holds in every state of such a run.

* `inv_…`: one lemma per kind of step. The steps of one session are frame arguments; the ones
  that move bytes (`inv_write`, `inv_read`, `inv_writeGap`), the one that changes who is spliced to
  whom (`inv_pair`) and the one that takes the payload (`inv_resumePayload`) carry the argument.
* `moves_inv`, `reach_inv`: every step, every run.
* `machine_refines_pipe`: each direction of the stream is a reliable pipe.
* `resume_exactly_once`: what is read is at every moment a prefix of what was written.
* `live_resume_repeats`: a stream that was dialled while `Reconnect` ran is resumed with its inner
  alive; bytes read off it after the payload are retransmitted, and read again.
-/

namespace OutRelayAgent.Relay

open Lib

variable {β : Type} {L : ResumeLib β} {s s' : Net L} {x : Side}

/-! ## Steps of one session -/

theorem inv_forget (hi : Inv s) : Inv (s.setEnd x { s.ends x with abandoned := true }) := by
  have hf := hi.wired.fits_self x
  exact hi.setEnd_same ⟨hf.bound, hf.owner, hf.conn_le, hf.dead, hf.opened, hf.inner_mated,
    hf.staged, hf.owing, hf.accepted, hf.tracks⟩ rfl rfl rfl rfl rfl rfl

theorem inv_applyCheckpoint (hi : Inv s) (p : Nat) :
    Inv (s.setEnd x { s.ends x with state := L.onCheckpointFromPeer (s.ends x).state p }) := by
  have hf := hi.wired.fits_self x
  exact hi.setEnd_same ⟨hf.bound, hf.owner, hf.conn_le, hf.dead, hf.opened, hf.inner_mated,
    hf.staged, hf.owing, hf.accepted, hf.tracks.checkpoint p⟩ rfl rfl rfl rfl rfl rfl

theorem inv_lose (hi : Inv s) : Inv (s.setEnd x { s.ends x with up := false }) := by
  have hf := hi.wired.fits_self x
  exact hi.setEnd_dead ⟨hf.bound, hf.owner, hf.conn_le, fun _ h => absurd h Bool.false_ne_true,
    hf.opened, hf.inner_mated, hf.staged, hf.owing, hf.accepted, hf.tracks⟩ (Or.inl rfl) rfl rfl

/-- A session at a point before the payload: it stands at its `inner`, and nothing is staged. -/
theorem Wired.fits_pc (hw : Wired s) {e : End L} (hinner : e.inner = (s.ends x).inner)
    (hconn : (s.ends x).conn ≤ e.conn) (hpc : e.pc = .run ∨ e.pc = .dial ∨ e.pc = .replay)
    (hacc : e.accepted = (s.ends x).accepted) (hret : e.returned = (s.ends x).returned)
    (hstate : e.state = (s.ends x).state) : Fits s x e := by
  have hf := hw.fits_self x
  have hnot : e.resuming = false := by
    rcases hpc with h | h | h <;> simp only [End.resuming, h]
  have hatt : e.att = (s.ends x).inner := (End.att_inner hnot).trans hinner
  refine ⟨⟨hinner ▸ hf.bound.1, hatt ▸ hf.bound.1⟩, ⟨hinner ▸ hf.owner.1, hatt ▸ hf.owner.1⟩, hconn,
    ?_, ?_, hinner ▸ hf.inner_mated, .of_not_resuming hnot, ?_, hacc ▸ List.prefix_rfl, ?_⟩
  · intro h
    exact absurd (hnot ▸ h) Bool.false_ne_true
  · intro st h
    rcases hpc with h' | h' | h' <;> rw [h'] at h <;> cases h
  · intro m h
    exact absurd (End.not_owes hnot ▸ h) Bool.false_ne_true
  · rw [hstate, hacc, hret]
    exact hf.tracks

theorem inv_closeConn (hi : Inv s) : Inv (s.setEnd x
    { s.ends x with up := false, pc := .dial }) :=
  hi.setEnd_dead (hi.wired.fits_pc rfl (Nat.le_refl _) (.inr (.inl rfl)) rfl rfl rfl)
    (Or.inl rfl) rfl rfl

theorem inv_dial (hi : Inv s) : Inv (s.setEnd x
    { s.ends x with conn := (s.ends x).conn + 1, up := true, pc := .replay }) := by
  have hf := hi.wired.fits_self x
  -- every stream opened so far is on an older connection
  have hold : (s.halves (s.ends x).inner).conn < (s.ends x).conn + 1 := by
    have h := hi.wired.conn_le _ hf.bound.1
    rw [hf.owner.1] at h
    omega
  exact hi.setEnd_dead (hi.wired.fits_pc rfl (Nat.le_succ _) (.inr (.inr rfl)) rfl rfl rfl)
    (Or.inr (Nat.ne_of_lt hold)) rfl rfl

/-- An `inner` that was dead when the payload was taken. -/
theorem Fits.cut {e : End L} (hf : Fits s x e) (h : e.resuming = true) :
    e.up = false ∨ (s.halves e.inner).conn ≠ e.conn := by
  cases hup : e.up with
  | false => exact .inl rfl
  | true => exact .inr (Nat.ne_of_lt (hf.dead h hup))

/-- An error return of `Resume` after the payload: the wrapper keeps its dead `inner`. -/
theorem inv_fail (hi : Inv s) (hpc : (s.ends x).resuming = true) :
    Inv (s.setEnd x { s.ends x with pc := .replay }) :=
  hi.setEnd_dead (hi.wired.fits_pc rfl (Nat.le_refl _) (.inr (.inr rfl)) rfl rfl rfl)
    ((hi.wired.fits_self x).cut hpc) rfl rfl

/-- A session that has not taken the payload goes on or gives up, and stays at its `inner`. -/
theorem inv_stay (hi : Inv s) (hnot : (s.ends x).resuming = false) {pc : Pc β}
    (hpc : pc = .run ∨ pc = .replay) : Inv (s.setEnd x { s.ends x with pc := pc }) := by
  have hpc' : pc = .run ∨ pc = .dial ∨ pc = .replay := hpc.imp_right .inr
  have hnot' : End.resuming { s.ends x with pc := pc } = false := by
    rcases hpc with rfl | rfl <;> rfl
  exact hi.setEnd_same (hi.wired.fits_pc rfl (Nat.le_refl _) hpc' rfl rfl rfl) rfl rfl
    ((End.att_inner hnot').trans (End.att_inner hnot).symm)
    ((End.not_owes hnot').trans (End.not_owes hnot).symm) rfl rfl

theorem End.resuming_of_owes {e : End L} (h : e.owes = true) : e.resuming = true := by
  revert h
  unfold End.owes End.resuming
  cases e.pc <;> simp

/-- A step of `Resume` that stays at its stream and has the gap still to write. -/
theorem Inv.advance (hi : Inv s) {pc : Pc β} (howes : (s.ends x).owes = true)
    (hatt : End.att { s.ends x with pc := pc } = (s.ends x).att)
    (howes' : End.owes { s.ends x with pc := pc } = true)
    (hst : Staged s.halves { s.ends x with pc := pc }) :
    Inv (s.setEnd x { s.ends x with pc := pc }) := by
  have hf := hi.wired.fits_self x
  refine hi.setEnd_same ⟨⟨hf.bound.1, hatt ▸ hf.bound.2⟩, ⟨hf.owner.1, hatt ▸ hf.owner.2⟩,
    hf.conn_le, ?_, ?_, hf.inner_mated, hst, ?_, hf.accepted, hf.tracks⟩ rfl rfl hatt
    (howes'.trans howes.symm) rfl rfl
  · intro _; exact hf.dead (End.resuming_of_owes howes)
  · intro st h
    have hpc : pc = .opened st := h
    simp [End.owes, hpc] at howes'
  · intro m _ hm; exact hf.owing m howes (hatt ▸ hm)

/-- `completeResume` reads the peer's position off the echo. -/
theorem inv_parseEcho (hi : Inv s) {st m q peerAck : Nat} (hpc : (s.ends x).pc = .waiting st)
    (hm : (s.halves st).mate = some m) (hr : (s.halves m).resume = some (q, peerAck)) :
    Inv (s.setEnd x { s.ends x with pc := .echoed st peerAck }) := by
  exact hi.advance (by simp only [End.owes, hpc]) (by simp only [End.att, hpc]) rfl ⟨m, q, hm, hr⟩

/-- The gap is everything accepted from the peer's position on. -/
theorem inv_retransmitFrom (hL : L.Lawful) (hi : Inv s) {st peerAck : Nat} {bs : List β}
    (hpc : (s.ends x).pc = .echoed st peerAck)
    (hg : L.retransmitFrom (s.ends x).state peerAck = some bs) :
    Inv (s.setEnd x { s.ends x with pc := .gap st bs }) := by
  have hf := hi.wired.fits_self x
  have hatt : (s.ends x).att = st := by simp only [End.att, hpc]
  have hst := hf.staged
  simp only [Staged, hpc] at hst
  obtain ⟨m, q, hm, hr⟩ := hst
  -- the position is one the peer announced, so it is not past what was accepted
  have hle : peerAck ≤ (s.ends x).accepted.length := by
    have h := hi.wired.acked hr
    rwa [hi.wired.mate_owner hm, Side.peer_peer, ← hatt, hf.owner.2] at h
  exact hi.advance (by simp only [End.owes, hpc]) hatt.symm rfl
    ⟨m, q, peerAck, hm, hr, hL.retransmit_eq hf.tracks hle hg⟩

/-- `SwapInner` installs the stream the session already stands at. -/
theorem inv_swapInner (hi : Inv s) {st : Nat} (hpc : (s.ends x).pc = .written st) :
    Inv (s.setEnd x { s.ends x with inner := st, pc := .run }) := by
  have hf := hi.wired.fits_self x
  have hatt : (s.ends x).att = st := by simp only [End.att, hpc]
  have howes : (s.ends x).owes = false := by simp only [End.owes, hpc]
  have hst := hf.staged
  simp only [Staged, hpc] at hst
  obtain ⟨m, hm⟩ := hst
  have hb : st < s.next := hatt ▸ hf.bound.2
  have ho : (s.halves st).owner = x := hatt ▸ hf.owner.2
  refine hi.setEnd_same ⟨⟨hb, hb⟩, ⟨ho, ho⟩, hf.conn_le, ?_, ?_, ?_, trivial, ?_, hf.accepted,
    hf.tracks⟩ rfl rfl hatt.symm howes.symm rfl rfl
  · intro h; exact absurd h (by simp [End.resuming])
  · intro _ h; exact absurd h (by simp)
  · simp [hm]
  · intro m' h; exact absurd h (by simp [End.owes])

/-! ## Steps that move bytes -/

/-- A wrapper whose `inner` is on an open connection has not taken a payload. -/
theorem Wired.not_resuming (hw : Wired s) (ha : s.alive (s.ends x).inner = true) :
    (s.ends x).resuming = false := by
  have ho := (hw.owner x).1
  simp only [Net.alive, ho, Bool.and_eq_true, beq_iff_eq] at ha
  cases hr : (s.ends x).resuming with
  | false => rfl
  | true =>
    have hlt := hw.dead x hr ha.1
    omega

/-- The stream the peer stands at is not paired with one of the peer's own. -/
theorem Wired.mate_owner_ne (hw : Wired s) {h m : Nat} (ho : (s.halves h).owner = x)
    (hm : (s.halves h).mate = some m) : (s.halves m).owner = x.peer := by
  rw [hw.mate_owner hm, ho]

theorem inv_drop (hi : Inv s) {h k : Nat} (hb : ¬ s.whole h = true) :
    Inv (s.setInbox h ((s.halves h).inbox.take k)) := by
  have hw := hi.wired
  refine ⟨hw.setInbox (fun hm => by rw [hw.unmated hm, List.take_nil])
    (fun x ho hm => by rw [hw.owing x h ho hm, List.take_nil]), fun z => ?_⟩
  have hf := hi.synced z
  by_cases hz : (s.ends z).att = h
  · unfold Synced at hf ⊢
    simp only [Net.setInbox_ends, Net.setInbox_alive, Net.setInbox_halves, hz, if_pos] at hf ⊢
    refine ⟨hf.ordered, fun ha => (List.take_prefix _ _).trans (hf.window ha), ?_, hf.owed⟩
    -- a path with a dead end: the peer does not stand at its other end
    intro ha hm hp _
    simp only at hm
    refine absurd ?_ hb
    simp only [Net.whole, ha, hm, hp, Bool.and_self]
  · unfold Synced at hf ⊢
    simpa only [Net.setInbox_ends, Net.setInbox_alive, Net.setInbox_halves, if_neg hz] using hf

/-- A session `x` that puts bytes on a stream of its own, whose other half is `m`. What is left to
show is the two directions: `x` reads as before, and the peer finds `bs` under way if it stands
at `m`. -/
theorem Inv.splice {e : End L} {m : Nat} {bs : List β} (hi : Inv s) (hf : Fits s x e)
    (howes : e.owes = false) (hmo : (s.halves m).owner = x.peer) (hmm : (s.halves m).mate ≠ none)
    (hx : Flow (s.halves e.att) ((s.setEnd x e).alive e.att) (s.ends x.peer).att
      (s.alive (s.ends x.peer).att) (s.ends x.peer).owes e.returned (s.ends x.peer).accepted)
    (hy : Flow { s.halves (s.ends x.peer).att with
        inbox := if (s.ends x.peer).att = m then bs else (s.halves (s.ends x.peer).att).inbox }
      (s.alive (s.ends x.peer).att) e.att ((s.setEnd x e).alive e.att) false
      (s.ends x.peer).returned e.accepted) :
    Inv ((s.setEnd x e).setInbox m bs) := by
  have hw := hi.wired
  have hyo := (hw.owner x.peer).2
  refine ⟨(hw.setEnd hf).setInbox (fun h => absurd h hmm) (fun z ho hz => ?_), fun z => ?_⟩
  · -- a stream of the peer is paired with one of `x`'s, not with `m`
    rcases Side.eq_or_peer x z with rfl | rfl
    · rw [Net.setEnd_ends_self, howes] at ho
      exact absurd ho (by decide)
    · rw [Net.setEnd_ends_peer] at hz
      have h := hw.mate_owner_ne hyo hz
      rw [hmo] at h
      exact absurd h (by simp)
  · unfold Synced
    simp only [Net.setInbox_ends, Net.setInbox_alive, Net.setInbox_halves, Net.setEnd_halves]
    rcases Side.eq_or_peer x z with rfl | rfl
    · have hne : e.att ≠ m := by
        rintro rfl
        rw [hf.owner.2] at hmo
        exact absurd hmo (by simp)
      simpa only [Net.setEnd_ends_self, Net.setEnd_ends_peer, if_neg hne,
        Net.alive_setEnd_peer hyo] using hx
    · simpa only [Net.setEnd_ends_self, Net.setEnd_ends_peer, Side.peer_peer, howes,
        Net.alive_setEnd_peer hyo] using hy

theorem inv_write (hi : Inv s) {bs : List β} (ha : s.alive (s.ends x).inner = true) :
    Inv ((s.splice (s.ends x).inner bs).setEnd x { s.ends x with
      state := L.onWrite (s.ends x).state bs, accepted := (s.ends x).accepted ++ bs }) := by
  have hw := hi.wired
  have hf := hw.fits_self x
  have hnot := hw.not_resuming ha
  have hatt : (s.ends x).att = (s.ends x).inner := End.att_inner hnot
  have howes : (s.ends x).owes = false := End.not_owes hnot
  obtain ⟨m, hm⟩ := Option.ne_none_iff_exists'.mp (hw.inner_mated x)
  have hms : (s.halves m).mate = some (s.ends x).inner := hw.mate_symm hm
  simp only [Net.splice, hm]
  set e : End L := { s.ends x with
    state := L.onWrite (s.ends x).state bs, accepted := (s.ends x).accepted ++ bs } with he
  have hstaged : Staged s.halves e := .of_not_resuming hnot
  have hal : ∀ k, (s.setEnd x e).alive k = s.alive k := fun k => Net.alive_setEnd rfl rfl
  refine hi.splice (m := m) (e := e) ⟨hf.bound, hf.owner, hf.conn_le, hf.dead, hf.opened,
    hf.inner_mated, hstaged, hf.owing, List.prefix_append _ _, hf.tracks.write bs⟩ howes
    (hw.mate_owner_ne hf.owner.1 hm) (by simp [hms]) ?_ ?_
  · rw [hal]
    exact hi.synced x
  · have h := hi.synced x.peer
    unfold Synced at h
    rw [Side.peer_peer, hatt, howes, ha] at h
    rw [hal, show e.att = (s.ends x).inner from hatt, ha,
      show e.accepted = (s.ends x).accepted ++ bs from rfl]
    have hord := h.ordered.trans (List.prefix_append _ bs)
    by_cases hz : (s.ends x.peer).att = m
    · -- the peer stands at the other end: what is under way reaches up to `bs`
      have hflush : s.alive (s.ends x.peer).att = true →
          (s.halves m).inbox ++ bs =
            ((s.ends x).accepted ++ bs).drop (s.ends x.peer).returned.length := fun h1 =>
        hz ▸ window_append_eq h.ordered (h.flush h1 (by rw [hz]; exact hms) rfl rfl)
      simp only [if_pos hz]
      exact ⟨hord, fun h1 => by rw [hflush h1], fun h1 _ _ _ => hflush h1,
        fun _ _ _ h4 => absurd h4 (by decide)⟩
    · simp only [if_neg hz]
      refine ⟨hord, fun h1 => window_append (h.window h1), fun _ h2 => ?_,
        fun _ _ _ h4 => absurd h4 (by decide)⟩
      exact absurd (Option.some.inj ((hw.mate_symm h2).symm.trans hm)) hz

/-- What `completeResume` is about to write is what the peer is waiting for, if the peer stands at
the other end of the stream. -/
theorem gap_window (hi : Inv s) {st m : Nat} {bs : List β} (hpc : (s.ends x).pc = .gap st bs)
    (hm : (s.halves st).mate = some m) (ha : s.alive st = true)
    (hz : (s.ends x.peer).att = m) (hay : s.alive m = true) :
    (s.halves m).inbox ++ bs = (s.ends x).accepted.drop (s.ends x.peer).returned.length := by
  have hw := hi.wired
  have hatt : (s.ends x).att = st := by simp only [End.att, hpc]
  have howes : (s.ends x).owes = true := by simp only [End.owes, hpc]
  have hst := hw.staged x
  simp only [Staged, hpc] at hst
  obtain ⟨m', q, a, hm', hr, hbs⟩ := hst
  obtain rfl : m = m' := Option.some.inj (hm.symm.trans hm')
  have h := hi.synced x.peer
  unfold Synced at h
  rw [Side.peer_peer, hatt, howes, hz] at h
  obtain rfl := h.owed hay (hw.mate_symm hm) ha rfl q a hr
  rw [hw.owing x m howes (by rw [hatt]; exact hm), List.nil_append, hbs]

/-- A session with a gap to write stands at its own half of a pair. -/
theorem Wired.at_gap (hw : Wired s) {st : Nat} {bs : List β} (hpc : (s.ends x).pc = .gap st bs) :
    (s.ends x).att = st ∧ (s.halves st).owner = x ∧
      ∃ m, (s.halves st).mate = some m ∧ (s.halves m).mate = some st := by
  have hatt : (s.ends x).att = st := by simp only [End.att, hpc]
  have hst := hw.staged x
  simp only [Staged, hpc] at hst
  obtain ⟨m, -, -, hm, -, -⟩ := hst
  exact ⟨hatt, hatt ▸ (hw.owner x).2, m, hm, hw.mate_symm hm⟩

theorem inv_writeGap (hi : Inv s) {st : Nat} {bs : List β} (hpc : (s.ends x).pc = .gap st bs)
    (ha : s.alive st = true) :
    Inv ((s.splice st bs).setEnd x { s.ends x with pc := .written st }) := by
  have hw := hi.wired
  have hf := hw.fits_self x
  obtain ⟨hatt, ho, m, hm, hms⟩ := hw.at_gap hpc
  have hb : st < s.next := hatt ▸ hf.bound.2
  simp only [Net.splice, hm]
  set e : End L := { s.ends x with pc := .written st } with he
  have hal : ∀ k, (s.setEnd x e).alive k = s.alive k := fun k => Net.alive_setEnd rfl rfl
  refine hi.splice (m := m) (e := e) ⟨⟨hf.bound.1, hb⟩, ⟨hf.owner.1, ho⟩,
    hf.conn_le, ?_, ?_, hf.inner_mated, ⟨m, hm⟩, ?_, hf.accepted, hf.tracks⟩ rfl
    (hw.mate_owner_ne ho hm) (by simp [hms]) ?_ ?_
  · intro _; exact hf.dead (by simp only [End.resuming, hpc])
  · intro _ h; exact absurd h (by simp [he])
  · intro _ h; exact absurd h (by simp [End.owes, he])
  · rw [hal]
    have h := hi.synced x
    unfold Synced at h
    rwa [hatt] at h
  · have h := hi.synced x.peer
    unfold Synced at h
    rw [Side.peer_peer, hatt] at h
    rw [hal, show e.att = st from rfl, show e.accepted = (s.ends x).accepted from rfl, ha]
    by_cases hz : (s.ends x.peer).att = m
    · have hgap := gap_window hi hpc hm ha hz
      simp only [hz, if_true] at h ⊢
      exact ⟨h.ordered, fun h1 => by rw [hgap h1], fun h1 _ _ _ => hgap h1,
        fun _ _ _ h4 => absurd h4 (by decide)⟩
    · simp only [if_neg hz]
      refine ⟨h.ordered, h.window, fun _ h2 => ?_, fun _ _ _ h4 => absurd h4 (by decide)⟩
      exact absurd (Option.some.inj ((hw.mate_symm h2).symm.trans hm)) hz

/-- A gap write that fails midway: the peer may get a part of the gap, `Resume` returns an
error. -/
theorem inv_writeGapErr (hi : Inv s) {st : Nat} {bs : List β} (hpc : (s.ends x).pc = .gap st bs)
    (ha : s.alive st = true) (k : Nat) :
    Inv ((s.splice st (bs.take k)).setEnd x { s.ends x with pc := .replay }) := by
  have hw := hi.wired
  have hf := hw.fits_self x
  obtain ⟨hatt, ho, m, hm, hms⟩ := hw.at_gap hpc
  simp only [Net.splice, hm]
  set e : End L := { s.ends x with pc := .replay } with he
  have hda : (s.setEnd x e).alive e.att = false := by
    apply Net.alive_eq_false
    rw [Net.setEnd_halves, show (s.halves e.att).owner = x from hf.owner.1, Net.setEnd_ends_self]
    exact hf.cut (by simp only [End.resuming, hpc])
  refine hi.splice (m := m) (e := e)
    (hw.fits_pc rfl (Nat.le_refl _) (.inr (.inr rfl)) rfl rfl rfl) rfl
    (hw.mate_owner_ne ho hm) (by simp [hms]) (Flow.of_dead (hi.synced x).ordered hda) ?_
  · have h := hi.synced x.peer
    unfold Synced at h
    rw [Side.peer_peer] at h
    rw [show e.accepted = (s.ends x).accepted from rfl]
    by_cases hz : (s.ends x.peer).att = m
    · have hgap := gap_window hi hpc hm ha hz
      simp only [hz, if_true] at h ⊢
      refine Flow.dead_peer (b := false) (p := 0) (o := true) ⟨h.ordered, fun h1 => ?_, ?_, ?_⟩ hda
      · rw [← hgap h1]
        exact (List.prefix_append_right_inj _).mpr (List.take_prefix k bs)
      · intro _ _ h3; exact absurd h3 (by decide)
      · intro _ _ h3; exact absurd h3 (by decide)
    · simp only [if_neg hz]
      exact h.dead_peer hda

theorem inv_read (hi : Inv s) {n : Nat} (ha : s.alive (s.ends x).inner = true)
    (hn : n ≤ (s.halves (s.ends x).inner).inbox.length) :
    Inv ((s.setInbox (s.ends x).inner ((s.halves (s.ends x).inner).inbox.drop n)).setEnd x
      { s.ends x with
        state := L.onRead (s.ends x).state n
        returned := (s.ends x).returned ++ (s.halves (s.ends x).inner).inbox.take n }) := by
  have hw := hi.wired
  have hf := hw.fits_self x
  have hnot := hw.not_resuming ha
  have hatt : (s.ends x).att = (s.ends x).inner := End.att_inner hnot
  have hyo := (hw.owner x.peer).2
  set inbox := (s.halves (s.ends x).inner).inbox with hinbox
  set e : End L := { s.ends x with
    state := L.onRead (s.ends x).state n, returned := (s.ends x).returned ++ inbox.take n } with he
  have hstaged : Staged s.halves e := .of_not_resuming hnot
  have htracks : L.Tracks e.state e.accepted e.returned.length := by
    simp only [he, List.length_append, List.length_take, Nat.min_eq_left hn]
    exact hf.tracks.read n
  have hfit : Fits s x e := ⟨hf.bound, hf.owner, hf.conn_le, hf.dead, hf.opened, hf.inner_mated,
    hstaged, hf.owing, List.prefix_rfl, htracks⟩
  have hal : ∀ k, (s.setEnd x e).alive k = s.alive k := fun k => Net.alive_setEnd rfl rfl
  -- a peer that still owes its gap has put nothing on the path
  have howing : ∀ z, (s.ends z).owes = true →
      (s.halves (s.ends z).att).mate = some (s.ends x).inner → inbox = [] := fun z h1 h2 =>
    hw.owing z _ h1 h2
  have hatt' : e.att = (s.ends x).inner := hatt
  change Inv ((s.setEnd x e).setInbox (s.ends x).inner (inbox.drop n))
  refine ⟨(hw.setEnd hfit).setInbox (fun h => absurd h (hw.inner_mated x)) ?_, fun z => ?_⟩
  · refine Net.forall_setEnd (P := fun _ e => e.owes = true →
      (s.halves e.att).mate = some (s.ends x).inner → inbox.drop n = []) ?_ ?_
    · intro h1 h2
      rw [howing x h1 h2, List.drop_nil]
    · intro h1 h2
      rw [howing x.peer h1 h2, List.drop_nil]
  · unfold Synced
    simp only [Net.setInbox_ends, Net.setInbox_alive, hal, Net.setInbox_halves, Net.setEnd_halves]
    rcases Side.eq_or_peer x z with rfl | rfl
    · have h := hi.synced z
      unfold Synced at h
      rw [hatt] at h
      simp only [Net.setEnd_ends_self, Net.setEnd_ends_peer, hatt', if_true]
      refine ⟨append_window h.ordered ((List.take_prefix n _).trans (h.window ha)),
        fun _ => window_drop (h.window ha) hn,
        fun _ h2 h3 h4 => window_drop_eq (h.flush ha h2 h3 h4) hn, fun _ h2 h3 h4 => ?_⟩
      have hnil := howing z.peer h4 (hw.mate_symm h2)
      simp only [he, hnil, List.take_nil, List.append_nil]
      exact h.owed ha h2 h3 h4
    · have h := hi.synced x.peer
      unfold Synced at h
      have hne : (s.ends x.peer).att ≠ (s.ends x).inner := by
        intro heq
        rw [heq, hf.owner.1] at hyo
        exact absurd hyo (by simp)
      simp only [Net.setEnd_ends_self, Net.setEnd_ends_peer, Side.peer_peer, if_neg hne] at h ⊢
      exact h

/-! ## Steps that change a stream -/

/-- A session that has written its gap, or is not in `Resume`, stands at a paired stream. -/
theorem Wired.mated (hw : Wired s) (ho : (s.ends x).owes = false) :
    (s.halves (s.ends x).att).mate ≠ none := by
  have hin := hw.inner_mated x
  have hst := hw.staged x
  cases hpc : (s.ends x).pc with
  | run | dial | replay | opened => simpa only [End.att, hpc] using hin
  | written st =>
    simp only [Staged, End.att, hpc] at hst ⊢
    obtain ⟨m, hm⟩ := hst
    simp [hm]
  | _ => simp [End.owes, hpc] at ho

/-- Until the relay has paired its stream, a session stands where it announced. -/
theorem Wired.announced (hw : Wired s) (hm : (s.halves (s.ends x).att).mate = none) :
    Announced (s.halves (s.ends x).att) (s.ends x).returned := by
  have hst := hw.staged x
  have hmated : (s.ends x).owes = false → False := fun h => hw.mated h hm
  cases hpc : (s.ends x).pc with
  | payload st _ _ =>
    simp only [Staged, End.att, hpc] at hst ⊢
    intro p a h
    simp [hst] at h
  | waiting st => simpa only [Staged, End.att, hpc] using hst
  | echoed st _ | gap st _ =>
    simp only [Staged, End.att, hpc] at hst hm
    simp [hm] at hst
  | _ => exact (hmated (by simp only [End.owes, hpc])).elim

/-- The relay pairs two halves. Neither session has put anything on them, and each stands where it
announced. -/
theorem inv_pair (hi : Inv s) {i j : Nat} (hlt : i < s.next ∧ j < s.next)
    (ho : (s.halves i).owner ≠ (s.halves j).owner)
    (hr : (s.halves i).resume.isSome = true ∧ (s.halves j).resume.isSome = true)
    (hm : (s.halves i).mate = none ∧ (s.halves j).mate = none) : Inv (s.pairUp i j) := by
  have hw := hi.wired
  have hij : i ≠ j := by rintro rfl; exact ho rfl
  have hoi : (s.halves j).owner = (s.halves i).owner.peer := Side.eq_peer_of_ne ho.symm
  have hoj : (s.halves i).owner = (s.halves j).owner.peer := Side.eq_peer_of_ne ho
  have hmate : ∀ k, ((s.pairUp i j).halves k).mate =
      if k = i then some j else if k = j then some i else (s.halves k).mate := fun _ => rfl
  have hkeep : ∀ {k l}, (s.halves k).mate = some l → ((s.pairUp i j).halves k).mate = some l := by
    intro k l hk
    rw [hmate, if_neg (by rintro rfl; simp [hm.1] at hk), if_neg (by rintro rfl; simp [hm.2] at hk)]
    exact hk
  have hnone : ∀ {k}, (s.halves k).resume = none → (s.halves k).mate = none →
      ((s.pairUp i j).halves k).mate = none := by
    intro k hk hk'
    rw [hmate, if_neg (by rintro rfl; simp [hk] at hr), if_neg (by rintro rfl; simp [hk] at hr)]
    exact hk'
  -- a pair of the new state is a pair of the old one, or `i` with `j`
  have hcases : ∀ {k l}, ((s.pairUp i j).halves k).mate = some l →
      (s.halves k).mate = some l ∨ (k = i ∧ l = j) ∨ (k = j ∧ l = i) := by
    intro k l hk
    rw [hmate] at hk
    split_ifs at hk with h1 h2
    · exact Or.inr (Or.inl ⟨h1, (Option.some.inj hk).symm⟩)
    · exact Or.inr (Or.inr ⟨h2, (Option.some.inj hk).symm⟩)
    · exact Or.inl hk
  refine ⟨⟨hw.bound, hw.owner, ?_, ?_, ?_, hw.conn_le, hw.dead, ?_, ?_, ?_, ?_, ?_,
    hw.acked, hw.tracks⟩, ?_⟩
  · intro k l hk
    rcases hcases hk with h | ⟨-, rfl⟩ | ⟨-, rfl⟩
    · exact hw.mate_lt h
    · exact hlt.2
    · exact hlt.1
  · intro k l hk
    rcases hcases hk with h | ⟨rfl, rfl⟩ | ⟨rfl, rfl⟩
    · exact hkeep (hw.mate_symm h)
    · rw [hmate, if_neg (Ne.symm hij), if_pos rfl]
    · rw [hmate, if_pos rfl]
  · intro k l hk
    rcases hcases hk with h | ⟨rfl, rfl⟩ | ⟨rfl, rfl⟩
    · exact hw.mate_owner h
    · exact hoi
    · exact hoj
  · intro z st hpc
    have hst := hw.opened z st hpc
    exact ⟨hst.lt, hst.owner, hnone hst.resume hst.mate, hst.resume⟩
  · intro k hk
    rw [hmate] at hk
    split_ifs at hk
    exact hw.unmated hk
  · intro z
    obtain ⟨l, hl⟩ := Option.ne_none_iff_exists'.mp (hw.inner_mated z)
    exact ne_of_eq_of_ne (hkeep hl) (by simp)
  · intro z
    exact (hw.staged z).transport (fun hmz hrz => ⟨hnone hrz hmz, hrz⟩) id
      fun m hmz => ⟨hkeep hmz, rfl⟩
  · intro z m h1 hk
    rcases hcases hk with h | ⟨-, rfl⟩ | ⟨-, rfl⟩
    · exact hw.owing z m h1 h
    · exact hw.unmated hm.2
    · exact hw.unmated hm.1
  · intro z
    have h := hi.synced z
    unfold Synced at h ⊢
    change Flow _ (s.alive (s.ends z).att) (s.ends z.peer).att (s.alive (s.ends z.peer).att)
      (s.ends z.peer).owes (s.ends z).returned (s.ends z.peer).accepted
    by_cases hz : (s.halves (s.ends z).att).mate = none
    · -- nothing can be under way, and the session at the other end, if there, owes its gap
      refine ⟨h.ordered, fun _ => ?_, fun _ h2 _ h4 => ?_, fun _ _ _ _ => hw.announced hz⟩
      · change (s.halves (s.ends z).att).inbox <+: _
        rw [hw.unmated hz]
        exact List.nil_prefix
      · refine absurd ?_ (hw.mated h4)
        rcases hcases h2 with h' | ⟨-, h'⟩ | ⟨-, h'⟩
        · exact absurd (hz.symm.trans h') (by simp)
        · rw [h']; exact hm.2
        · rw [h']; exact hm.1
    · obtain ⟨l, hl⟩ := Option.ne_none_iff_exists'.mp hz
      have hback : ∀ {p}, ((s.pairUp i j).halves (s.ends z).att).mate = some p →
          (s.halves (s.ends z).att).mate = some p := fun h2 => by rw [← h2, hkeep hl, hl]
      exact ⟨h.ordered, h.window, fun h1 h2 => h.flush h1 (hback h2),
        fun h1 h2 => h.owed h1 (hback h2)⟩

/-- The `STREAM_RESUME` of an unpaired stream reaches the relay. -/
theorem Inv.setResume (hi : Inv s) {st : Nat} {r : Nat × Nat} (hpc : (s.ends x).pc = .waiting st)
    (hm : (s.halves st).mate = none) (ha : r.2 = (s.ends x).returned.length) :
    Inv (s.setHalf st { s.halves st with resume := some r }) := by
  have hw := hi.wired
  have hatt : (s.ends x).att = st := by simp only [End.att, hpc]
  have ho : (s.halves st).owner = x := hatt ▸ (hw.owner x).2
  have hhalf : ∀ k, (s.setHalf st { s.halves st with resume := some r }).halves k =
      { s.halves k with resume := if k = st then some r else (s.halves k).resume } := by
    intro k
    by_cases hk : k = st
    · subst hk
      simp
    · simp [Net.setHalf_ne s _ hk, hk]
  set s' := s.setHalf st { s.halves st with resume := some r } with hs'
  have hal : ∀ k, s'.alive k = s.alive k := fun k => Net.alive_setHalf rfl rfl
  have hends : s'.ends = s.ends := rfl
  -- a stream with a pairing is not the one that changes
  have hmated : ∀ {k l}, (s.halves k).mate = some l →
      (s'.halves k).resume = (s.halves k).resume := by
    intro k l hk
    rw [hhalf, if_neg]
    rintro rfl
    exact absurd (hm.symm.trans hk) (by simp)
  refine ⟨⟨hw.bound, ?_, ?_, ?_, ?_, ?_, ?_, ?_, ?_, ?_, ?_, ?_, ?_, hw.tracks⟩, ?_⟩
  · intro z; rw [hhalf, hhalf]; exact hw.owner z
  · intro k l h; rw [hhalf] at h; exact hw.mate_lt h
  · intro k l h; rw [hhalf] at h ⊢; exact hw.mate_symm h
  · intro k l h; rw [hhalf] at h; rw [hhalf, hhalf]; exact hw.mate_owner h
  · intro k h; rw [hhalf]; exact hw.conn_le k h
  · intro z h; rw [hhalf]; exact hw.dead z h
  · -- a stream that is not used yet belongs to the peer: `x` waits on `st`
    intro z st' (hz : (s.ends z).pc = .opened st')
    have hst := hw.opened z st' hz
    have hne : st' ≠ st := by
      rintro rfl
      rw [← hst.owner, ho, hpc] at hz
      cases hz
    refine ⟨hst.lt, ?_, ?_, ?_⟩
    · rw [hhalf]; exact hst.owner
    · rw [hhalf]; exact hst.mate
    · rw [hhalf, if_neg hne]; exact hst.resume
  · intro k h; rw [hhalf] at h ⊢; exact hw.unmated h
  · intro z; rw [hhalf]; exact hw.inner_mated z
  · intro z
    have hst := hw.staged z
    change Staged s'.halves (s.ends z)
    rcases Side.eq_or_peer x z with rfl | rfl
    · simp only [Staged, hpc, Announced, hhalf, if_true]
      rintro p a h
      rw [← ha, Option.some.inj h]
    · -- the peer stands at a stream of its own
      have hne : (s.ends x.peer).att ≠ st := by
        rintro rfl
        rw [(hw.owner x.peer).2] at ho
        exact absurd ho (by simp)
      have hsame : s'.halves (s.ends x.peer).att = s.halves (s.ends x.peer).att := by
        rw [hhalf, if_neg hne]
      refine hst.transport ?_ ?_ fun m hmz => ?_
      · rw [hsame]
        exact And.intro
      · rw [hsame]
        exact id
      · rw [hsame]
        exact ⟨hmz, hmated (hw.mate_symm hmz)⟩
  · intro z m h1 h2
    rw [hhalf] at h2 ⊢
    exact hw.owing z m h1 h2
  · intro k p a h
    by_cases hk : k = st
    · subst hk
      rw [hhalf, if_pos rfl] at h
      have hlen := (hi.synced x).ordered.length_le
      rw [hhalf]
      change a ≤ (s.ends (s.halves k).owner.peer).accepted.length
      rw [ho, show a = (s.ends x).returned.length by rw [← ha, Option.some.inj h]]
      exact hlen
    · rw [hhalf, if_neg hk] at h
      rw [hhalf]
      exact hw.acked h
  · intro z
    have h := hi.synced z
    unfold Synced at h ⊢
    simp only [hal, hhalf, hends] at h ⊢
    refine ⟨h.ordered, h.window, h.flush, fun h1 h2 h3 h4 => ?_⟩
    have hne : (s.ends z).att ≠ st := by
      intro heq
      simp only [heq, hm] at h2
      exact absurd h2 (by simp)
    have hown := h.owed h1 h2 h3 h4
    simp only [Announced, if_neg hne] at hown ⊢
    exact hown

theorem inv_writeResume (hi : Inv s) {st myPos peerAck : Nat}
    (hpc : (s.ends x).pc = .payload st myPos peerAck) :
    Inv ((s.setHalf st { s.halves st with resume := some (myPos, peerAck) }).setEnd x
      { s.ends x with pc := .waiting st }) := by
  have hst := hi.wired.staged x
  simp only [Staged, hpc] at hst
  have hnone : Announced (s.halves st) (s.ends x).returned := by
    intro p a h
    rw [hst.2.1] at h
    exact absurd h (by simp)
  -- the point in `Resume` first: nothing is announced yet
  have h1 : Inv (s.setEnd x { s.ends x with pc := .waiting st }) :=
    hi.advance (by simp only [End.owes, hpc]) (by simp only [End.att, hpc]) rfl hnone
  have hpc1 : ((s.setEnd x { s.ends x with pc := .waiting st }).ends x).pc = .waiting st := by simp
  exact h1.setResume (r := (myPos, peerAck)) hpc1 hst.1 (by simpa using hst.2.2)

/-- A stream nobody refers to yet. -/
theorem Inv.fresh (hi : Inv s) {f : Half β} (hf : f.mate = none ∧ f.resume = none ∧ f.inbox = [])
    (hc : f.conn ≤ (s.ends f.owner).conn) :
    Inv { s with halves := Function.update s.halves s.next f, next := s.next + 1 } := by
  have hw := hi.wired
  set s' : Net L := { s with halves := Function.update s.halves s.next f, next := s.next + 1 }
    with hs'
  have hold : ∀ {k}, k < s.next → s'.halves k = s.halves k :=
    fun hk => Function.update_of_ne (Nat.ne_of_lt hk) ..
  have hnew : s'.halves s.next = f := Function.update_self ..
  have hends : s'.ends = s.ends := rfl
  have hin := fun z => hold (hw.bound z).1
  have hat := fun z => hold (hw.bound z).2
  have hal : ∀ z, s'.alive (s.ends z).att = s.alive (s.ends z).att := fun z => by
    simp only [Net.alive, hat, hends]
  -- a paired stream is an old one, paired with an old one
  have hmate : ∀ {k l}, (s'.halves k).mate = some l → (s.halves k).mate = some l := by
    intro k l h
    by_cases hk : k = s.next
    · rw [hk, hnew, hf.1] at h
      exact absurd h (by simp)
    · rwa [show s'.halves k = s.halves k from Function.update_of_ne hk ..] at h
  have hlt : ∀ {k l}, (s.halves k).mate = some l → k < s.next ∧ l < s.next := fun h =>
    ⟨hw.mate_lt (hw.mate_symm h), hw.mate_lt h⟩
  refine ⟨⟨?_, ?_, ?_, ?_, ?_, ?_, ?_, ?_, ?_, ?_, ?_, ?_, ?_, hw.tracks⟩, ?_⟩
  · intro z
    have h := hw.bound z
    exact ⟨Nat.lt_succ_of_lt h.1, Nat.lt_succ_of_lt h.2⟩
  · intro z; rw [hends, hin, hat]; exact hw.owner z
  · intro k l h; exact Nat.lt_succ_of_lt (hw.mate_lt (hmate h))
  · intro k l h
    have h' := hmate h
    rw [hold (hlt h').2]
    exact hw.mate_symm h'
  · intro k l h
    have h' := hmate h
    rw [hold (hlt h').1, hold (hlt h').2]
    exact hw.mate_owner h'
  · intro k hk
    rcases Nat.lt_succ_iff_lt_or_eq.mp hk with hk | rfl
    · rw [hold hk]; exact hw.conn_le k hk
    · rw [hnew]; exact hc
  · intro z h; rw [hends, hin]; exact hw.dead z h
  · intro z st hz
    have hst := hw.opened z st hz
    refine ⟨Nat.lt_succ_of_lt hst.lt, ?_, ?_, ?_⟩
    · rw [hold hst.lt]; exact hst.owner
    · rw [hold hst.lt]; exact hst.mate
    · rw [hold hst.lt]; exact hst.resume
  · intro k h
    by_cases hk : k = s.next
    · rw [hk, hnew]; exact hf.2.2
    · rw [show s'.halves k = s.halves k from Function.update_of_ne hk ..] at h ⊢
      exact hw.unmated h
  · intro z; rw [hends, hin]; exact hw.inner_mated z
  · intro z
    refine (hw.staged z).transport ?_ ?_ fun m hmz => ?_
    · rw [hat z]
      exact And.intro
    · rw [hat z]
      exact id
    · rw [hat z, hold (hlt hmz).2]
      exact ⟨hmz, rfl⟩
  · intro z m h1 h2
    have h' := hmate h2
    rw [hold (hlt h').2]
    exact hw.owing z m h1 h'
  · intro k p a h
    by_cases hk : k = s.next
    · rw [hk, hnew, hf.2.1] at h
      exact absurd h (by simp)
    · rw [show s'.halves k = s.halves k from Function.update_of_ne hk ..] at h ⊢
      exact hw.acked h
  · intro z
    have h := hi.synced z
    unfold Synced at h ⊢
    simpa only [hends, hat, hal] using h

/-- `Resume` opens a stream; the session stays at its `inner`. -/
theorem inv_openStream (hi : Inv s) (hpc : (s.ends x).pc = .run ∨ (s.ends x).pc = .replay) :
    Inv { s.setEnd x { s.ends x with pc := .opened s.next } with
      halves := Function.update s.halves s.next ⟨x, (s.ends x).conn, none, none, []⟩
      next := s.next + 1 } := by
  set f : Half β := ⟨x, (s.ends x).conn, none, none, []⟩ with hfd
  have h1 : Inv { s with halves := Function.update s.halves s.next f, next := s.next + 1 } :=
    hi.fresh ⟨rfl, rfl, rfl⟩ (Nat.le_refl _)
  set s1 : Net L := { s with halves := Function.update s.halves s.next f, next := s.next + 1 }
    with hs1
  have hnew : s1.halves s.next = f := Function.update_self ..
  have hnot : (s.ends x).resuming = false := by
    rcases hpc with h | h <;> simp only [End.resuming, h]
  have hf := h1.wired.fits_self x
  have hatt : (s1.ends x).att = (s1.ends x).inner := End.att_inner hnot
  change Inv (s1.setEnd x { s1.ends x with pc := .opened s.next })
  refine h1.setEnd_same ⟨⟨hf.bound.1, hf.bound.1⟩, ⟨hf.owner.1, hf.owner.1⟩, hf.conn_le, nofun, ?_,
    hf.inner_mated, trivial, nofun, hf.accepted, hf.tracks⟩ rfl rfl hatt.symm
    (End.not_owes hnot).symm rfl rfl
  rintro st ⟨⟩
  exact ⟨Nat.lt_succ_self _, by rw [hnew], by rw [hnew], by rw [hnew]⟩

/-- `ResumePayload` announces how much this session has read. The `inner` is dead, so the session
leaves it for the stream it has opened, on which nothing is under way. -/
theorem inv_resumePayload (hL : L.Lawful) (hi : Inv s) {st : Nat}
    (hpc : (s.ends x).pc = .opened st) (hdead : s.alive (s.ends x).inner = false) :
    Inv (s.setEnd x { s.ends x with
      pc := .payload st (L.sent (s.ends x).state) (L.received (s.ends x).state) }) := by
  have hw := hi.wired
  have hf := hw.fits_self x
  have hst := hf.opened st hpc
  set e : End L := { s.ends x with
    pc := .payload st (L.sent (s.ends x).state) (L.received (s.ends x).state) } with he
  have hat : e.att = st := rfl
  have hcut : (s.ends x).up = true → (s.halves (s.ends x).inner).conn < (s.ends x).conn := by
    intro hup
    have hle := hw.conn_le _ hf.bound.1
    rw [hf.owner.1] at hle
    refine Nat.lt_of_le_of_ne hle fun heq => ?_
    simp [Net.alive, hf.owner.1, hup, heq] at hdead
  have hfit : Fits s x e := by
    refine ⟨⟨hf.bound.1, hst.lt⟩, ⟨hf.owner.1, hst.owner⟩, hf.conn_le, fun _ => hcut,
      fun _ h => (by cases h), hf.inner_mated, ⟨hst.mate, hst.resume, hL.received_eq hf.tracks⟩, ?_,
      hf.accepted, hf.tracks⟩
    intro m _ hm
    rw [hat, hst.mate] at hm
    cases hm
  refine ⟨hw.setEnd hfit, fun z => ?_⟩
  have hyo := (hw.owner x.peer).2
  rcases Side.eq_or_peer x z with rfl | rfl
  · have h := (hi.synced z).ordered
    unfold Synced
    rw [Net.setEnd_ends_self, Net.setEnd_ends_peer, Net.setEnd_halves, hat]
    refine ⟨h, fun _ => ?_, fun _ h2 => ?_, fun _ h2 => ?_⟩
    · rw [hw.unmated hst.mate]
      exact List.nil_prefix
    · exact absurd (hst.mate.symm.trans h2) (by simp)
    · exact absurd (hst.mate.symm.trans h2) (by simp)
  · -- no stream of the peer is paired with the new one
    have h := hi.synced x.peer
    have hne : (s.halves (s.ends x.peer).att).mate ≠ some st := fun h2 =>
      absurd (hst.mate.symm.trans (hw.mate_symm h2)) (by simp)
    unfold Synced at h ⊢
    rw [Net.setEnd_ends_peer, Side.peer_peer, Net.setEnd_ends_self, Net.setEnd_halves,
      Net.alive_setEnd_peer hyo]
    rw [Side.peer_peer] at h
    exact ⟨h.ordered, h.window, fun _ h2 => absurd h2 hne, fun _ h2 => absurd h2 hne⟩

/-! ## Every run -/

theorem init_mate {i j : Nat} :
    ((init L).halves i).mate = some j ↔ i = 0 ∧ j = 1 ∨ i = 1 ∧ j = 0 := by
  rcases i with _ | _ | i <;> simp [init, eq_comm]

theorem wired_initial : Wired (init L) where
  bound x := by
    cases x <;> simp [init, End.att]
  owner x := by
    cases x <;> exact ⟨rfl, rfl⟩
  mate_lt h := by
    rcases init_mate.mp h with ⟨rfl, rfl⟩ | ⟨rfl, rfl⟩ <;> simp [init]
  mate_symm h := by
    rcases init_mate.mp h with ⟨rfl, rfl⟩ | ⟨rfl, rfl⟩ <;> rfl
  mate_owner h := by
    rcases init_mate.mp h with ⟨rfl, rfl⟩ | ⟨rfl, rfl⟩ <;> rfl
  conn_le h _ := by
    rcases h with _ | _ | h <;> simp [init]
  dead _ h := absurd h Bool.false_ne_true
  opened _ _ h := absurd h (by simp [init])
  unmated {h} _ := by
    rcases h with _ | _ | h <;> rfl
  inner_mated x := by
    cases x <;> simp [init]
  staged _ := trivial
  owing _ _ h := absurd h Bool.false_ne_true
  acked {h p a} hr := by
    rcases h with _ | _ | h <;> simp [init] at hr
  tracks _ := .new

theorem inv_init : Inv (init L) := by
  refine ⟨wired_initial, fun x => ?_⟩
  cases x <;> exact ⟨List.prefix_rfl, fun _ => List.prefix_rfl, fun _ _ _ _ => rfl,
    fun _ _ _ h => absurd h Bool.false_ne_true⟩

/-- **Every step that is `settled` keeps the invariant.** -/
theorem moves_inv (hL : L.Lawful) (hi : Inv s) {a : Act β} (hs : settled s a = true)
    (hm : Moves s a s') : Inv s' := by
  cases hm with
  | write x bs _ ha => exact inv_write hi ha
  | read x n _ ha hn => exact inv_read hi ha hn
  | emitOnce x =>
    have hw := hi.wired
    exact ⟨⟨hw.bound, hw.owner, hw.mate_lt, hw.mate_symm, hw.mate_owner, hw.conn_le, hw.dead,
      hw.opened, hw.unmated, hw.inner_mated, hw.staged, hw.owing, hw.acked, hw.tracks⟩, hi.synced⟩
  | ignoreCheckpoint => exact hi
  | applyCheckpoint => exact inv_applyCheckpoint hi _
  | lose x => exact inv_lose hi
  | drop h k hb => exact inv_drop hi hb
  | closeConn x _ => exact inv_closeConn hi
  | dial x _ => exact inv_dial hi
  | openStream x hpc _ => exact inv_openStream hi hpc
  | resumePayload x hpc => exact inv_resumePayload hL hi hpc (by simpa [settled] using hs)
  | writeResume x hpc _ => exact inv_writeResume hi hpc
  | pair i j hlt ho hr hm => exact inv_pair hi hlt ho hr hm
  | parseEcho x hpc hm hr _ => exact inv_parseEcho hi hpc hm hr
  | retransmitFrom x hpc hg => exact inv_retransmitFrom hL hi hpc hg
  | writeGap x hpc ha => exact inv_writeGap hi hpc ha
  | writeGapErr x k hpc ha => exact inv_writeGapErr hi hpc ha k
  | swapInner x hpc => exact inv_swapInner hi hpc
  | fail x =>
    cases hr : (s.ends x).resuming with
    | true => exact inv_fail hi hr
    | false => exact inv_stay hi hr (.inr rfl)
  | finish x hpc => exact inv_stay hi (by simp only [End.resuming, hpc]) (.inl rfl)
  | forget x => exact inv_forget hi

theorem reach_inv (hL : L.Lawful) (h : ((machine L).guard settled).Reach s) : Inv s := by
  refine Machine.Reach.invariant (M := (machine L).guard settled) inv_init ?_ h
  intro s a s' hi hst
  obtain ⟨hs, hst⟩ := Machine.guard_step.mp hst
  exact moves_inv hL hi hs (step_moves hst)

/-! ## The stream is a pipe -/

/-- A session whose records are kept. -/
theorem setEnd_quiet {e : End L} (ha : e.accepted = (s.ends x).accepted)
    (hr : e.returned = (s.ends x).returned) (z : Side) :
    ((s.setEnd x e).ends z).accepted = (s.ends z).accepted ∧
      ((s.setEnd x e).ends z).returned = (s.ends z).returned := by
  rcases Side.eq_or_peer x z with rfl | rfl
  · rw [Net.setEnd_ends_self]; exact ⟨ha, hr⟩
  · rw [Net.setEnd_ends_peer]; exact ⟨rfl, rfl⟩

/-- Only `Write` accepts bytes and only `Read` returns them. -/
theorem moves_quiet {a : Act β} (hm : Moves s a s') (hw : ∀ x bs, a ≠ .write x bs)
    (hr : ∀ x n, a ≠ .read x n) (z : Side) :
    (s'.ends z).accepted = (s.ends z).accepted ∧ (s'.ends z).returned = (s.ends z).returned := by
  cases hm with
  | write x bs => exact absurd rfl (hw x bs)
  | read x n => exact absurd rfl (hr x n)
  | emitOnce | ignoreCheckpoint | drop | pair => exact ⟨rfl, rfl⟩
  | writeGap x | writeGapErr x k =>
    rw [← Net.splice_ends s]
    exact setEnd_quiet (by rw [Net.splice_ends]) (by rw [Net.splice_ends]) z
  | _ => exact setEnd_quiet (by rfl) (by rfl) z

theorem setEnd_ends_of_peer (e : End L) : (s.setEnd x.peer e).ends x = s.ends x :=
  Function.update_of_ne (Side.ne_peer x) ..

/-- What one direction of the stream is at `s`: what `x` reads of what its peer writes. -/
def Models (x : Side) (s : Net L) (p : Pipe β) : Prop :=
  p.accepted = (s.ends x.peer).accepted ∧ p.returned = (s.ends x).returned

/-- **A relay-mediated stream refines a reliable pipe**, as long as the payloads are taken on dead
streams: `Write` at one end is its `write`, `Read` at the other its `read`, and losing, redialling,
resuming and retransmitting do nothing. -/
theorem machine_refines_pipe (hL : L.Lawful) (x : Side) :
    ((machine L).guard settled).Refines (Pipe.machine β) (Models x) where
  init := ⟨rfl, rfl⟩
  step s p a s' hs hR hst := by
    obtain ⟨hacc, hret⟩ := hR
    have hm : Moves s a s' := step_moves (Machine.guard_step.mp hst).2
    have hquiet := moves_quiet hm
    cases hm with
    | write z bs _ _ =>
      rcases Side.eq_or_peer x z with rfl | rfl
      · refine Or.inl ⟨?_, ?_⟩
        · rw [Net.setEnd_ends_peer, Net.splice_ends, hacc]
        · rw [Net.setEnd_ends_self, hret]
      · refine Or.inr ⟨.write bs, p.write bs, rfl, ?_, ?_⟩
        · rw [Net.setEnd_ends_self, Pipe.write_accepted, hacc]
        · rw [setEnd_ends_of_peer, Net.splice_ends, Pipe.write_returned, hret]
    | read z n _ ha hn =>
      rcases Side.eq_or_peer x z with rfl | rfl
      · have hi := reach_inv hL hs
        have hatt : (s.ends z).att = (s.ends z).inner := End.att_inner (hi.wired.not_resuming ha)
        have hwin : (s.halves (s.ends z).inner).inbox <+: p.pending := by
          have h := (hi.synced z).window
          rw [hatt] at h
          rw [Pipe.pending, hacc, hret]
          exact h ha
        refine Or.inr ⟨.read n, p.read n, if_pos (hn.trans hwin.length_le), ?_, ?_⟩
        · rw [Net.setEnd_ends_peer, Net.setInbox_ends, Pipe.read_accepted, hacc]
        · rw [Net.setEnd_ends_self, Pipe.read_returned, hret, window_take hwin hn]
      · refine Or.inl ⟨?_, ?_⟩
        · rw [Net.setEnd_ends_self, hacc]
        · rw [setEnd_ends_of_peer, Net.setInbox_ends, hret]
    | _ =>
      have hq := hquiet (by simp) (by simp)
      exact Or.inl ⟨by rw [hacc, (hq x.peer).1], by rw [hret, (hq x).2]⟩

/-- **Relay-mediated resume delivers exactly once**, as long as every `ResumePayload` is taken with
the wrapper's `inner` on a closed connection. In every state of every such interleaving of writes,
reads, checkpoints, losses and resumes, what `Read` returned at one end is a prefix of what `Write`
accepted at the other. -/
theorem resume_exactly_once (hL : L.Lawful)
    (h : (machine L).ReachWhile (fun s a => settled s a = true) s) (x : Side) :
    (s.ends x).returned <+: (s.ends x.peer).accepted := by
  obtain ⟨p, -, hacc, hret⟩ := (machine_refines_pipe hL x).reach (Machine.reach_guard h)
  rw [← hacc, ← hret]
  exact p.ordered

/-- Two sessions whose rings hold four bytes. -/
abbrev ringMachine : Machine (Net (ResumeLib.ringLib Nat 4)) (Act Nat) :=
  machine (ResumeLib.ringLib Nat 4)

/-- The consumer writes three bytes and the provider reads one; the provider's connection is lost
with the other two under way, both sessions reconnect and resume, and the consumer retransmits
them. A checkpoint emitted before the loss is delivered after it. -/
def lossRun : List (Act Nat) :=
  [.write .consumer [1, 2, 3], .read .provider 1, .emitOnce .provider,
   .lose .provider, .drop 1 0, .closeConn .provider, .dial .provider, .openStream .provider,
   .resumePayload .provider, .writeResume .provider,
   .closeConn .consumer, .dial .consumer, .openStream .consumer, .resumePayload .consumer,
   .writeResume .consumer, .pair 2 3, .applyCheckpoint 0,
   .parseEcho .consumer, .retransmitFrom .consumer, .writeGap .consumer, .swapInner .consumer,
   .parseEcho .provider, .retransmitFrom .provider, .writeGap .provider, .swapInner .provider,
   .write .consumer [4], .read .provider 3]

theorem resume_exactly_once_lossRun :
    ∃ s, ringMachine.ReachWhile (fun s a => settled s a = true) s ∧
      (s.ends .provider).returned = [1, 2, 3, 4] ∧
      (s.ends .provider).returned <+: (s.ends .consumer).accepted := by
  have hr := Machine.reachWhile_of_run (M := ringMachine) (C := settled) lossRun rfl
  exact ⟨_, hr, rfl, resume_exactly_once (ResumeLib.ringLib_lawful Nat 4) hr .provider⟩

/-- The consumer dialled while its `Reconnect` ran, so its stream is resumed with the inner alive:
it takes the payload, and then reads two bytes off that inner. The provider loses its connection,
reconnects and resumes. It is told the position of before the read, and retransmits. -/
def liveRun : List (Act Nat) :=
  [.openStream .consumer, .resumePayload .consumer,
   .write .provider [1, 2], .read .consumer 2, .writeResume .consumer,
   .lose .provider, .closeConn .provider, .dial .provider, .openStream .provider,
   .resumePayload .provider, .writeResume .provider, .pair 2 3,
   .parseEcho .provider, .retransmitFrom .provider, .writeGap .provider, .swapInner .provider,
   .parseEcho .consumer, .retransmitFrom .consumer, .writeGap .consumer, .swapInner .consumer,
   .read .consumer 2]

/-- **A stream that is resumed alive repeats bytes.** -/
theorem live_resume_repeats : ∃ s, ringMachine.Reach s ∧
    (s.ends .provider).accepted = [1, 2] ∧ (s.ends .consumer).returned = [1, 2, 1, 2] ∧
    ¬ (s.ends .consumer).returned <+: (s.ends .provider).accepted := by
  refine ⟨_, Machine.reach_of_run (M := ringMachine) liveRun rfl, rfl, rfl, ?_⟩
  intro h
  exact absurd h.length_le (by decide)

end OutRelayAgent.Relay
