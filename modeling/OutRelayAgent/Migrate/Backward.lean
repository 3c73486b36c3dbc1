import OutRelayAgent.Lib.Pipe
import OutRelayAgent.Migrate.Model

/-!
# What a migration does to the responder's bytes

The initiator announces how far it has read (`ResumePayload`), the responder writes the rest from
there on the direct stream (`RetransmitFrom`), and both swap. The announcement and the retransmit
are each taken once, while the relay stream stays alive: a `Read` that takes bytes off the relay
after the announcement returns them a second time off the direct stream, and a `Write` that puts
bytes on the relay after the retransmit loses them.

* `quiet`: the condition on a step that excludes both, on the state before it.
* `Before`: until the responder has taken its retransmit, the relay carries everything; what the
  initiator has announced is what it has returned.
* `After`: the direct stream carries the responder's bytes from the announced position on.
* `backward_exactly_once`: in every run whose steps are quiet, what the initiator has returned is
  at every moment a prefix of what the responder wrote.
* `backward_repeats`: a byte read off the relay between the announcement and the swap is returned
  twice.
-/

namespace OutRelayAgent.Migrate

open Lib

variable {β : Type} {L : ResumeLib (Cell β)} {s s' : Net L} {a : Act β}

/-- The steps after which no byte of the relay stream is unaccounted for: positions are taken when
no call is between its transport and its counter, and afterwards no call on the relay moves
bytes. -/
def quiet (s : Net L) : Act β → Bool
  | .resumePayload =>
    match (s.dirs .initiator).reader with
    | .got _ _ => false
    | _ => true
  | .innerRead .initiator _ =>
    match (s.dirs .initiator).reader with
    | .captured .relay => !s.ipc.announced
    | _ => true
  | .retransmitFrom =>
    match (s.dirs .initiator).writer with
    | .put _ _ => false
    | _ => true
  | .innerWrite .responder _ =>
    match (s.dirs .initiator).writer with
    | .captured .relay _ => !s.rpc.resent
    | _ => true
  | _ => true

/-! ## Counters and positions -/

/-- The `resume.State` of `x` has counted what `x` wrote, up to what a `Write` has not handed to
`OnWrite` yet, and what `x` returned. -/
def Ledger (s : Net L) (x : Role) : Prop :=
  ∃ w, (s.dirs x.peer).accepted = w ++ (s.dirs x.peer).writer.uncounted ∧
    L.Tracks (s.wraps x).state w (s.dirs x).returned.length

theorem Ledger.frame {x : Role} (h : Ledger s x)
    (ha : (s'.dirs x.peer).accepted = (s.dirs x.peer).accepted)
    (hu : (s'.dirs x.peer).writer.uncounted = (s.dirs x.peer).writer.uncounted)
    (hst : (s'.wraps x).state = (s.wraps x).state)
    (hr : (s'.dirs x).returned = (s.dirs x).returned) : Ledger s' x := by
  obtain ⟨w, hw, ht⟩ := h
  exact ⟨w, by rw [ha, hu]; exact hw, by rw [hst, hr]; exact ht⟩

/-- A step of one direction that neither accepts nor returns bytes. -/
theorem Ledger.setDir (hi : ∀ x, Ledger s x) (x : Role) {y : Role} {d : Dir β}
    (ha : d.accepted = (s.dirs y).accepted)
    (hu : d.writer.uncounted = (s.dirs y).writer.uncounted)
    (hr : d.returned = (s.dirs y).returned) : Ledger (s.setDir y d) x := by
  rcases Role.eq_or_peer y x with rfl | rfl
  · exact (hi x).frame (by simp) (by simp) rfl (by simpa using hr)
  · exact (hi y.peer).frame (by simpa using ha) (by simpa using hu) rfl (by simp)

/-- A step of one wrapper that does not reach its counters. -/
theorem Ledger.setWrap (hi : ∀ x, Ledger s x) (x : Role) {y : Role} {v : Wrap L}
    (hst : v.state = (s.wraps y).state) : Ledger (s.setWrap y v) x := by
  refine (hi x).frame rfl rfl ?_ rfl
  rcases Role.eq_or_peer y x with rfl | rfl
  · simpa using hst
  · simp

theorem ledger_step (hi : ∀ x, Ledger s x) (hm : Moves s a s') (x : Role) : Ledger s' x := by
  cases hm with
  | readCapture y _ | readErr y p _ | readEof y p _ _ => exact Ledger.setDir hi x rfl rfl rfl
  | innerRead y n p _ _ _ => exact Ledger.setDir hi x (by simp) (by simp) (by simp)
  | onRead y p cs h =>
    rcases Role.eq_or_peer y x with rfl | rfl
    · obtain ⟨w, hw, ht⟩ := hi x
      exact ⟨w, by simpa using hw, by simpa [Dir.give] using ht.read cs.length⟩
    · exact (hi y.peer).frame (by simp) (by simp [Dir.give]) (by simp) (by simp)
  | write y bs h | writeCapture y bs h | writeErr y bs h =>
    exact Ledger.setDir hi x rfl (by simp [h, WritePc.uncounted]) rfl
  | innerWrite y k p bs h =>
    rcases Role.eq_or_peer y x with rfl | rfl
    · obtain ⟨w, hw, ht⟩ := hi x
      have hall : (s.dirs x.peer).accepted = w := by simpa [h, WritePc.uncounted] using hw
      exact ⟨w, by simp [hall, WritePc.uncounted], by simpa using ht⟩
    · exact (hi y.peer).frame (by simp) (by simp) rfl (by simp)
  | onWrite y cs rest h =>
    -- what was handed to the transport is now counted
    have hun : (if rest.isEmpty then WritePc.idle else WritePc.todo rest).uncounted =
        ([] : List (Cell β)) := by split <;> rfl
    rcases Role.eq_or_peer y x with rfl | rfl
    · obtain ⟨w, hw, ht⟩ := hi x
      have hall : (s.dirs x.peer).accepted = w ++ cs := by simpa [h, WritePc.uncounted] using hw
      exact ⟨w ++ cs, by simpa [hall] using hun, by simpa using ht.write cs⟩
    · exact (hi y.peer).frame (by simp) (by simp) (by simp) (by simp)
  | applyCheckpoint y p =>
    rcases Role.eq_or_peer y x with rfl | rfl
    · obtain ⟨w, hw, ht⟩ := hi x
      exact ⟨w, hw, by simpa using ht.checkpoint p⟩
    · exact (hi y.peer).frame rfl rfl (by simp) rfl
  | closeWrite y | close y | closeCapture y _ => exact Ledger.setWrap hi x rfl
  | closeInner y p _ =>
    have hset := fun z => Ledger.setWrap hi z (y := y) (v := { s.wraps y with closer := none }) rfl
    exact Ledger.setDir hset x (by simp) (by simp) (by simp)
  | openStream _ | openErr _ | resumePayload _ | writeResume _ | parseFrame _ _ | lookup _ _
  | retransmitFrom _ _ => exact hi x
  | writeResumeErr _ | parseErr _ | unknown _ _ | evicted _ _ | writeGap _ =>
    exact Ledger.setDir hi x (by simp) (by simp) (by simp)
  | cancelInitiator _ | cancelResponder _ => exact Ledger.setDir hi x rfl rfl rfl
  | writeGapErr k _ =>
    refine Ledger.setDir (fun z => Ledger.setDir hi z ?_ ?_ ?_) x ?_ ?_ ?_ <;> simp
  | swapInitiator _ | swapResponder _ => exact Ledger.setWrap hi x rfl

/-- `a` has been announced by the initiator and not been answered. -/
def Announced (s : Net L) (a : ℕ) : Prop :=
  (∃ m, s.ipc = .payload m a) ∨ (∃ m, s.frame = some (m, a)) ∨ s.rpc = .parsed a ∨ s.rpc = .found a

/-- How the two programs and the responder's `Write` hang together. -/
structure Wired (s : Net L) : Prop where
  ledger : ∀ x, Ledger s x
  inner : (s.wraps .responder).inner = .direct → s.rpc.moved = true
  writer : (s.dirs .initiator).writer.path = some .direct → s.rpc.moved = true
  framed : s.frame ≠ none → s.ipc.hasSent = true
  parsed : ∀ a, s.rpc = .parsed a ∨ s.rpc = .found a → s.ipc.hasSent = true

theorem Wired.announced (hw : Wired s) {p : ℕ} (h : Announced s p) : s.ipc.announced = true := by
  rcases h with ⟨m, h⟩ | ⟨m, h⟩ | h
  · rw [h]; rfl
  · exact InitPc.announced_of_hasSent (hw.framed (by simp [h]))
  · exact InitPc.announced_of_hasSent (hw.parsed p h)

theorem wired_init : Wired (init L) := by
  refine ⟨fun x => ⟨[], by cases x <;> rfl, .new⟩, ?_, ?_, ?_, ?_⟩ <;>
    simp [init, WritePc.path]

/-- The facts of `Wired` about the two programs. -/
theorem programs_step (hin : (s.wraps .responder).inner = .direct → s.rpc.moved = true)
    (hwr : (s.dirs .initiator).writer.path = some .direct → s.rpc.moved = true)
    (hfr : s.frame ≠ none → s.ipc.hasSent = true)
    (hpa : ∀ a, s.rpc = .parsed a ∨ s.rpc = .found a → s.ipc.hasSent = true) (hm : Moves s a s') :
    ((s'.wraps .responder).inner = .direct → s'.rpc.moved = true) ∧
      ((s'.dirs .initiator).writer.path = some .direct → s'.rpc.moved = true) ∧
      (s'.frame ≠ none → s'.ipc.hasSent = true) ∧
      ∀ a, s'.rpc = .parsed a ∨ s'.rpc = .found a → s'.ipc.hasSent = true := by
  cases hm with
  | readCapture x _ | readErr x p _ | readEof x p _ _ | innerRead x n p _ _ _ | onRead x p cs _
  | closeInner x p _ =>
    refine ⟨?_, ?_, hfr, hpa⟩ <;> cases x <;> simp_all [Role.peer, Dir.give]
  | write x bs _ | writeCapture x bs _ | writeErr x bs _ | innerWrite x k p bs _ =>
    refine ⟨?_, ?_, hfr, hpa⟩ <;> cases x <;> simp_all [Role.peer, WritePc.path]
  | onWrite x cs rest _ =>
    have hp : (if rest.isEmpty then WritePc.idle else WritePc.todo rest).path = none := by
      split <;> rfl
    refine ⟨?_, ?_, hfr, hpa⟩ <;> cases x <;> simp_all [Role.peer]
  | applyCheckpoint x p | closeWrite x | close x | closeCapture x _ =>
    refine ⟨?_, hwr, hfr, hpa⟩
    cases x <;> simpa using hin
  | openStream h | openErr h | resumePayload h | writeResumeErr h | swapInitiator h
  | cancelInitiator h =>
    refine ⟨?_, ?_, ?_, ?_⟩ <;> simp_all [InitPc.hasSent]
  | writeResume h => refine ⟨hin, hwr, fun _ => rfl, fun _ _ => rfl⟩
  | parseFrame h hf =>
    refine ⟨?_, ?_, hfr, ?_⟩ <;> simp_all [RespPc.moved]
  | lookup h _ | retransmitFrom h _ =>
    refine ⟨?_, ?_, hfr, ?_⟩ <;> simp_all [RespPc.moved]
  | parseErr h | unknown h _ | evicted h _ | writeGap h | writeGapErr k h =>
    refine ⟨?_, ?_, hfr, ?_⟩ <;>
      simp_all [RespPc.moved, Net.refuse]
  | swapResponder h | cancelResponder h =>
    refine ⟨fun _ => rfl, fun _ => rfl, hfr, ?_⟩
    simp

theorem wired_step (hw : Wired s) (hm : Moves s a s') : Wired s' := by
  obtain ⟨hin, hwr, hfr, hpa⟩ := programs_step hw.inner hw.writer hw.framed hw.parsed hm
  exact ⟨ledger_step hw.ledger hm, hin, hwr, hfr, hpa⟩

/-! ## The two phases -/

/-- The direction in which the initiator reads, until the retransmit is taken. -/
structure Before (s : Net L) : Prop where
  direct : (s.dirs .initiator).overDirect = []
  relay : (s.dirs .initiator).accepted = (s.dirs .initiator).returned ++ (s.dirs .initiator).onRelay
  held : s.ipc.announced = true → (s.dirs .initiator).reader.held .relay = []
  acked : ∀ p, Announced s p → p = (s.dirs .initiator).returned.length
  early : s.rpc.resent = false

/-- What the direct stream has carried, against what it should: `rest` is what the responder has
accepted from the announced position on. -/
def Carried (rpc : RespPc β) (sent rest : List (Cell β)) : Prop :=
  match rpc with
  | .gap cs => sent = [] ∧ cs = rest
  | .written | .swapped | .done => sent = rest
  | .refused => True
  | .idle | .parsed _ | .found _ => False

/-- The direction from then on; `r` is what had been returned at the announcement. -/
structure After (s : Net L) (r : List (Cell β)) : Prop where
  returned : (s.dirs .initiator).returned = r ++ (s.dirs .initiator).viaDirect
  start : r <+: (s.dirs .initiator).accepted
  window : (s.dirs .initiator).overDirect <+: (s.dirs .initiator).accepted.drop r.length
  held : (s.dirs .initiator).reader.held .relay = []
  sent : s.ipc.hasSent = true
  carried : Carried s.rpc (s.dirs .initiator).overDirect
    ((s.dirs .initiator).accepted.drop r.length)

/-- `d'` has the same bytes in the same places as `d`. -/
structure Dir.Same (d' d : Dir β) : Prop where
  accepted : d'.accepted = d.accepted
  returned : d'.returned = d.returned
  viaDirect : d'.viaDirect = d.viaDirect
  held : ∀ q, d'.reader.held q = d.reader.held q
  relay : d'.relay.inbox = d.relay.inbox
  direct : d'.direct.inbox = d.direct.inbox

section Same

variable {d d' : Dir β}

theorem Dir.Same.overDirect (h : d'.Same d) : d'.overDirect = d.overDirect := by
  simp only [Dir.overDirect, h.viaDirect, h.held, h.direct]

theorem Dir.Same.onRelay (h : d'.Same d) : d'.onRelay = d.onRelay := by
  simp only [Dir.onRelay, h.held, h.relay]

theorem Dir.same_reader {p : ReadPc β} (h : ∀ q, p.held q = d.reader.held q) :
    Dir.Same { d with reader := p } d := ⟨rfl, rfl, rfl, h, rfl, rfl⟩

theorem Dir.same_writer (p : WritePc β) : Dir.Same { d with writer := p } d :=
  ⟨rfl, rfl, rfl, fun _ => rfl, rfl, rfl⟩

theorem Dir.same_close (p : Path) : Dir.Same (d.close p) d :=
  ⟨by simp, by simp, by simp, by simp, by simp, by simp⟩

theorem Dir.same_refl (d : Dir β) : d.Same d := ⟨rfl, rfl, rfl, fun _ => rfl, rfl, rfl⟩

end Same

/-- A step that moves none of the responder's bytes and announces nothing new. -/
theorem Before.frame (h : Before s) (hd : (s'.dirs .initiator).Same (s.dirs .initiator))
    (hi : s'.ipc.announced = true → s.ipc.announced = true)
    (ha : ∀ p, Announced s' p → Announced s p) (hr : s'.rpc.resent = false) : Before s' where
  direct := hd.overDirect.trans h.direct
  relay := by rw [hd.accepted, hd.returned, hd.onRelay]; exact h.relay
  held hp := (hd.held _).trans (h.held (hi hp))
  acked p hp := by rw [hd.returned]; exact h.acked p (ha p hp)
  early := hr

theorem After.frame {r : List (Cell β)} (h : After s r)
    (hd : (s'.dirs .initiator).Same (s.dirs .initiator)) (hi : s'.ipc.hasSent = true)
    (hc : Carried s'.rpc (s.dirs .initiator).overDirect
      ((s.dirs .initiator).accepted.drop r.length)) : After s' r where
  returned := by rw [hd.returned, hd.viaDirect]; exact h.returned
  start := by rw [hd.accepted]; exact h.start
  window := by rw [hd.accepted, hd.overDirect]; exact h.window
  held := (hd.held _).trans h.held
  sent := hi
  carried := by rw [hd.accepted, hd.overDirect]; exact hc

theorem Before.take {n : ℕ} {p : Path} (h : Before s)
    (hr : (s.dirs .initiator).reader = .captured p) (h0 : 0 < n)
    (hn : n ≤ ((s.dirs .initiator).lane p).inbox.length)
    (hq : quiet s (.innerRead .initiator n) = true) :
    Before (s.setDir .initiator ((s.dirs .initiator).take p n)) := by
  cases p with
  | relay =>
    have hna : s.ipc.announced = false := by simpa [quiet, hr] using hq
    refine ⟨?_, ?_, ?_, ?_, h.early⟩
    · simpa [Dir.overDirect_take hr] using h.direct
    · simpa [Dir.onRelay_take hr] using h.relay
    · exact fun hp => absurd (hna.symm.trans hp) (by decide)
    · intro q hq; simpa using h.acked q hq
  | direct =>
    -- nothing is there to be taken
    have hin : (s.dirs .initiator).direct.inbox = [] :=
      (List.append_eq_nil_iff.mp h.direct).2
    exact absurd hn (by simp only [Dir.lane, hin, List.length_nil]; omega)

theorem Before.give {p : Path} {cs : List (Cell β)} (hw : Wired s) (h : Before s)
    (hr : (s.dirs .initiator).reader = .got p cs) (w : Wrap L) :
    Before ((s.setWrap .initiator w).setDir .initiator ((s.dirs .initiator).give p cs)) := by
  have hdir := h.direct
  have hrel := h.relay
  cases p with
  | relay =>
    refine ⟨?_, ?_, ?_, ?_, h.early⟩
    · simpa [Dir.overDirect_give hr] using h.direct
    · simpa [Dir.give, Dir.onRelay, ReadPc.held, hr] using h.relay
    · intro _; simp [Dir.give, ReadPc.held]
    · intro q hq
      -- a position is announced, so `Read` holds nothing
      have hcs : cs = [] := by simpa [hr, ReadPc.held] using h.held (hw.announced hq)
      simpa [Dir.give, hcs] using h.acked q hq
  | direct =>
    have hcs : cs = [] := by
      simp only [Dir.overDirect, hr, ReadPc.held, List.append_eq_nil_iff] at hdir
      simpa using hdir.1.2
    refine ⟨?_, ?_, ?_, ?_, h.early⟩
    · simpa [Dir.overDirect_give hr] using h.direct
    · simpa [Dir.give, Dir.onRelay, ReadPc.held, hr, hcs] using h.relay
    · intro _; simp [Dir.give, ReadPc.held]
    · intro q hq; simpa [Dir.give, hcs] using h.acked q hq

theorem Before.accept {p : Path} {bs rest all : List β} (hw : Wired s) (h : Before s)
    (hp : (s.dirs .initiator).writer = .captured p all) :
    Before (s.setDir .initiator ((s.dirs .initiator).accept p bs rest)) := by
  cases p with
  | relay =>
    refine ⟨?_, ?_, ?_, ?_, h.early⟩
    · simpa using h.direct
    · simp only [Net.setDir_dirs, if_true, Dir.accept_accepted, Dir.accept_returned,
        Dir.onRelay_accept]
      rw [← List.append_assoc, ← h.relay]
    · simpa using h.held
    · intro q hq; simpa using h.acked q hq
  | direct =>
    have hm := hw.writer (by rw [hp]; rfl)
    have he := h.early
    cases hr : s.rpc <;> simp_all [RespPc.moved, RespPc.resent]

/-- The responder takes its retransmit, from the announced position. -/
theorem Before.retransmitFrom (hL : L.Lawful) (hw : Wired s) (h : Before s) {p : ℕ}
    {cs : List (Cell β)} (hr : s.rpc = .found p)
    (hg : L.retransmitFrom (s.wraps .responder).state p = some cs)
    (hq : quiet s .retransmitFrom = true) :
    After { s with rpc := .gap cs } (s.dirs .initiator).returned := by
  have hp : p = (s.dirs .initiator).returned.length := h.acked p (Or.inr (Or.inr (Or.inr hr)))
  have hsent := hw.parsed p (Or.inr hr)
  have hpre : (s.dirs .initiator).returned <+: (s.dirs .initiator).accepted :=
    h.relay ▸ List.prefix_append _ _
  obtain ⟨w, hacc, htr⟩ := hw.ledger .responder
  have hun : (s.dirs .initiator).writer.uncounted = [] := by
    cases hwr : (s.dirs .initiator).writer <;> simp_all [quiet, WritePc.uncounted]
  have hacc' : (s.dirs .initiator).accepted = w := by
    simpa [Role.peer, hun] using hacc
  have hcs : cs = (s.dirs .initiator).accepted.drop (s.dirs .initiator).returned.length := by
    rw [← hp, hacc']
    exact hL.retransmit_eq htr (by rw [hp, ← hacc']; exact hpre.length_le) hg
  have hvia : (s.dirs .initiator).viaDirect = [] := by
    have := h.direct
    simp only [Dir.overDirect, List.append_eq_nil_iff] at this
    exact this.1.1
  exact ⟨by simp [hvia], hpre, by simp [h.direct], h.held (InitPc.announced_of_hasSent hsent),
    hsent, h.direct, hcs⟩

theorem After.take {r : List (Cell β)} {n : ℕ} {p : Path} (h : After s r)
    (hr : (s.dirs .initiator).reader = .captured p)
    (hq : quiet s (.innerRead .initiator n) = true) :
    After (s.setDir .initiator ((s.dirs .initiator).take p n)) r := by
  cases p with
  | relay =>
    have hna : s.ipc.announced = false := by simpa [quiet, hr] using hq
    exact absurd (hna.symm.trans (InitPc.announced_of_hasSent h.sent)) (by decide)
  | direct =>
    have ho := Dir.overDirect_take (n := n) hr
    refine ⟨?_, ?_, ?_, ?_, h.sent, ?_⟩
    · simpa using h.returned
    · simpa using h.start
    · simpa [ho] using h.window
    · simp [ReadPc.held]
    · simpa [ho] using h.carried

theorem After.give {r : List (Cell β)} {p : Path} {cs : List (Cell β)} (h : After s r)
    (hr : (s.dirs .initiator).reader = .got p cs) (w : Wrap L) :
    After ((s.setWrap .initiator w).setDir .initiator ((s.dirs .initiator).give p cs)) r := by
  have ho := Dir.overDirect_give hr
  have hret : (Dir.give (s.dirs .initiator) p cs).returned =
      r ++ (Dir.give (s.dirs .initiator) p cs).viaDirect := by
    cases p with
    | relay =>
      have hcs : cs = [] := by simpa [hr, ReadPc.held] using h.held
      simpa [Dir.give, hcs] using h.returned
    | direct => simp [Dir.give, h.returned]
  refine ⟨?_, ?_, ?_, ?_, h.sent, ?_⟩
  · simpa using hret
  · exact h.start
  · simpa [ho] using h.window
  · rfl
  · simpa [ho] using h.carried

theorem After.accept {r : List (Cell β)} {p : Path} {k : ℕ} {bs rest all : List β} (hw : Wired s)
    (h : After s r) (hp : (s.dirs .initiator).writer = .captured p all)
    (hq : quiet s (.innerWrite .responder k) = true) :
    After (s.setDir .initiator ((s.dirs .initiator).accept p bs rest)) r := by
  have hc := h.carried
  cases p with
  | relay =>
    have hns : s.rpc.resent = false := by simpa [quiet, hp] using hq
    -- only a refused migration leaves the responder writing on the relay
    have href : s.rpc = .refused := by
      cases hr : s.rpc <;> simp_all [RespPc.resent, Carried]
    refine ⟨?_, ?_, ?_, ?_, h.sent, ?_⟩
    · simpa using h.returned
    · simpa using h.start.trans (List.prefix_append _ _)
    · simpa using window_append h.window
    · simpa using h.held
    · simp [href, Carried]
  | direct =>
    have hm := hw.writer (by rw [hp]; rfl)
    have hover : (s.dirs .initiator).overDirect =
        (s.dirs .initiator).accepted.drop r.length := by
      cases hr : s.rpc <;> simp_all [RespPc.moved, Carried]
    have hover' : ((s.dirs .initiator).accept .direct bs rest).overDirect =
        ((s.dirs .initiator).accept .direct bs rest).accepted.drop r.length := by
      rw [Dir.overDirect_accept, Dir.accept_accepted]
      exact window_append_eq h.start hover
    refine ⟨?_, ?_, ?_, ?_, h.sent, ?_⟩
    · simpa using h.returned
    · simpa using h.start.trans (List.prefix_append _ _)
    · simp only [Net.setDir_dirs, if_true, hover']
      exact List.prefix_rfl
    · simpa using h.held
    · cases hr : s.rpc <;> simp_all [RespPc.moved, Carried]

/-- The gap, or the part of it that the transport accepted, goes out on the direct stream. -/
theorem After.push {r cs cs' : List (Cell β)} {rpc : RespPc β} (h : After s r)
    (hr : s.rpc = .gap cs) (hp : cs' <+: cs)
    (hc : Carried rpc cs' ((s.dirs .initiator).accepted.drop r.length)) :
    After { s.setDir .initiator ((s.dirs .initiator).push .direct cs') with rpc := rpc } r := by
  have hcar := h.carried
  rw [hr] at hcar
  obtain ⟨hnil, rfl⟩ := hcar
  have hover : ((s.dirs .initiator).push .direct cs').overDirect = cs' := by
    have h1 : ((s.dirs .initiator).push .direct cs').overDirect =
        (s.dirs .initiator).overDirect ++ cs' := (List.append_assoc ..).symm
    rw [h1, hnil, List.nil_append]
  refine ⟨?_, ?_, ?_, ?_, h.sent, ?_⟩
  · simpa using h.returned
  · simpa using h.start
  · simpa [hover] using hp
  · simpa using h.held
  · simpa [hover] using hc

/-! ## Every quiet run -/

def Phase (s : Net L) : Prop := Before s ∨ ∃ r, After s r

theorem Phase.frame (h : Phase s) (hd : (s'.dirs .initiator).Same (s.dirs .initiator))
    (hi : s'.ipc = s.ipc) (hf : s'.frame = s.frame) (hr : s'.rpc = s.rpc) : Phase s' := by
  rcases h with h | ⟨r, h⟩
  · refine Or.inl (h.frame hd (by rw [hi]; exact id) ?_ (by rw [hr]; exact h.early))
    intro p hp
    rwa [Announced, hi, hf, hr] at hp
  · exact Or.inr ⟨r, h.frame hd (by rw [hi]; exact h.sent) (by rw [hr]; exact h.carried)⟩

theorem setDir_same {x : Role} {d : Dir β} (hd : d.Same (s.dirs x)) (y : Role) :
    ((s.setDir x d).dirs y).Same (s.dirs y) := by
  rcases eq_or_ne y x with rfl | hne
  · simpa [Net.setDir] using hd
  · simpa [Net.setDir, hne] using Dir.same_refl _

theorem Phase.setDir (h : Phase s) {x : Role} {d : Dir β} (hd : d.Same (s.dirs x)) :
    Phase (s.setDir x d) :=
  h.frame (setDir_same hd _) rfl rfl rfl

/-- The other direction is free. -/
theorem Phase.setDir_responder (h : Phase s) (d : Dir β) : Phase (s.setDir .responder d) :=
  h.frame (by simpa using Dir.same_refl _) rfl rfl rfl

theorem Phase.setWrap (h : Phase s) (x : Role) (w : Wrap L) : Phase (s.setWrap x w) :=
  h.frame (Dir.same_refl _) rfl rfl rfl

theorem Phase.before (h : Phase s) (hs : s.ipc.hasSent = false) : Before s := by
  rcases h with h | ⟨r, h⟩
  · exact h
  · exact absurd (hs.symm.trans h.sent) Bool.false_ne_true

theorem Phase.after (h : Phase s) (hr : s.rpc.resent = true) : ∃ r, After s r := by
  rcases h with h | h
  · exact absurd (h.early.symm.trans hr) Bool.false_ne_true
  · exact h

/-- The initiator takes its positions. -/
theorem Before.resumePayload (hL : L.Lawful) (hw : Wired s) (h : Before s)
    (hq : quiet s .resumePayload = true) : Before { s with
      ipc := .payload (L.sent (s.wraps .initiator).state)
        (L.received (s.wraps .initiator).state) } := by
  obtain ⟨w, -, htr⟩ := hw.ledger .initiator
  refine ⟨h.direct, h.relay, fun _ => ?_, ?_, h.early⟩
  · cases hr : (s.dirs .initiator).reader <;> simp_all [quiet, ReadPc.held]
  · rintro p (⟨m, hm⟩ | hrest)
    · cases hm
      exact hL.received_eq htr
    · exact h.acked p (Or.inr hrest)

/-- A step of `MigrateToDirect` after the announcement, or one that ends it. -/
theorem Phase.setIpc {i : InitPc} (h : Phase s) (hd : (s'.dirs .initiator).Same (s.dirs .initiator))
    (hi : s'.ipc = i) (hf : s'.frame = s.frame) (hr : s'.rpc = s.rpc)
    (hb : i.announced = true → s.ipc.announced = true) (hnp : ∀ m p, i ≠ .payload m p)
    (hs : s.ipc.hasSent = true → i.hasSent = true) : Phase s' := by
  rcases h with h | ⟨r, h⟩
  · refine Or.inl (h.frame hd (by rw [hi]; exact hb) ?_ (by rw [hr]; exact h.early))
    intro p hp
    rw [Announced, hi, hf, hr] at hp
    rcases hp with ⟨m, hm⟩ | hp
    · exact absurd hm (hnp m p)
    · exact Or.inr hp
  · exact Or.inr ⟨r, h.frame hd (by rw [hi]; exact hs h.sent) (by rw [hr]; exact h.carried)⟩

/-- `handleDirectStream` goes on, or refuses, before it has taken its retransmit. -/
theorem Phase.setRpc (h : Phase s) (hd : (s'.dirs .initiator).Same (s.dirs .initiator))
    (hi : s'.ipc = s.ipc) (hf : s'.frame = s.frame) (he : s.rpc.resent = false)
    (hne : s.rpc ≠ .refused) (hr : s'.rpc.resent = false)
    (ha : ∀ p, s'.rpc = .parsed p ∨ s'.rpc = .found p → Announced s p) : Phase s' := by
  rcases h with h | ⟨r, h⟩
  · refine Or.inl (h.frame hd (by rw [hi]; exact id) ?_ hr)
    intro p hp
    rw [Announced, hi, hf] at hp
    rcases hp with hp | hp | hp
    · exact Or.inl hp
    · exact Or.inr (Or.inl hp)
    · exact ha p hp
  · have hc := h.carried
    cases hrpc : s.rpc <;> simp_all [RespPc.resent, Carried]

theorem phase_step (hL : L.Lawful) (hw : Wired s) (hi : Phase s) (hq : quiet s a = true)
    (hm : Moves s a s') : Phase s' := by
  cases hm with
  | readCapture x h => exact hi.setDir (Dir.same_reader (by simp [h, ReadPc.held]))
  | innerRead x n p h h0 hn =>
    cases x with
    | initiator =>
      rcases hi with hb | ⟨r, ha⟩
      · exact Or.inl (hb.take h h0 hn hq)
      · exact Or.inr ⟨r, ha.take h hq⟩
    | responder => exact hi.setDir_responder _
  | onRead x p cs h =>
    cases x with
    | initiator =>
      rcases hi with hb | ⟨r, ha⟩
      · exact Or.inl (hb.give hw h _)
      · exact Or.inr ⟨r, ha.give h _⟩
    | responder => exact (hi.setWrap _ _).setDir_responder _
  | readErr x p h => exact hi.setDir (Dir.same_reader (by simp [h, ReadPc.held]))
  | readEof x p h _ => exact hi.setDir ⟨rfl, rfl, rfl, by simp [h, ReadPc.held], rfl, rfl⟩
  | write x bs _ | writeCapture x bs _ | writeErr x bs _ => exact hi.setDir (Dir.same_writer _)
  | onWrite x cs rest _ => exact (hi.setWrap x _).setDir (Dir.same_writer _)
  | innerWrite x k p bs h =>
    cases x with
    | initiator => exact hi.setDir_responder _
    | responder =>
      rcases hi with hb | ⟨r, ha⟩
      · exact Or.inl (hb.accept hw h)
      · exact Or.inr ⟨r, ha.accept hw h hq⟩
  | applyCheckpoint x p | closeWrite x | close x | closeCapture x _ => exact hi.setWrap x _
  | closeInner x p _ => exact (hi.setWrap x _).setDir (Dir.same_close p)
  | openStream h | openErr h =>
    exact hi.setIpc (Dir.same_refl _) rfl rfl rfl (by simp [InitPc.announced])
      (by simp) (by simp [h, InitPc.hasSent])
  | resumePayload h =>
    have hb := hi.before (by simp [h, InitPc.hasSent])
    exact Or.inl (hb.resumePayload hL hw hq)
  | writeResume h =>
    have hb := hi.before (by simp [h, InitPc.hasSent])
    refine Or.inl (hb.frame (Dir.same_refl _) (by simp [h, InitPc.announced]) ?_ hb.early)
    rintro p (⟨m, hm⟩ | ⟨m, hm⟩ | hp)
    · exact absurd hm (by simp)
    · cases hm
      exact Or.inl ⟨_, h⟩
    · exact Or.inr (Or.inr hp)
  | writeResumeErr h =>
    exact hi.setIpc (by simpa using Dir.same_refl _) rfl rfl rfl (by simp [InitPc.announced])
      (by simp) (by simp [h, InitPc.hasSent])
  | swapInitiator h =>
    exact hi.setIpc (Dir.same_refl _) rfl rfl rfl (by simp [h, InitPc.announced]) (by simp)
      (by simp [InitPc.hasSent])
  | cancelInitiator h =>
    refine hi.setIpc ?_ rfl rfl rfl (by simp [h, InitPc.announced]) (by simp)
      (by simp [InitPc.hasSent])
    simpa using ⟨rfl, rfl, rfl, fun _ => rfl, rfl, rfl⟩
  | parseFrame h hf =>
    exact hi.setRpc (Dir.same_refl _) rfl rfl (by simp [h, RespPc.resent]) (by simp [h]) rfl
      (by rintro p (hp | hp) <;> cases hp; exact Or.inr (Or.inl ⟨_, hf⟩))
  | lookup h _ =>
    exact hi.setRpc (Dir.same_refl _) rfl rfl (by simp [h, RespPc.resent]) (by simp [h]) rfl
      (by rintro p (hp | hp) <;> cases hp; exact Or.inr (Or.inr (Or.inl h)))
  | parseErr h | unknown h _ | evicted h _ =>
    exact hi.setRpc (by simpa [Net.refuse] using Dir.same_close _) rfl rfl
      (by simp [h, RespPc.resent]) (by simp [h]) rfl (by simp [Net.refuse])
  | retransmitFrom h hg =>
    rcases hi with hb | ⟨r, ha⟩
    · exact Or.inr ⟨_, hb.retransmitFrom hL hw h hg hq⟩
    · exact absurd ha.carried (by simp [h, Carried])
  | writeGap h =>
    obtain ⟨r, ha⟩ := hi.after (by simp [h, RespPc.resent])
    have hc := ha.carried
    rw [h] at hc
    exact Or.inr ⟨r, ha.push h List.prefix_rfl hc.2⟩
  | writeGapErr k h =>
    obtain ⟨r, ha⟩ := hi.after (by simp [h, RespPc.resent])
    have h1 := ha.push h (List.take_prefix k _) (show Carried .refused _ _ from trivial)
    refine Or.inr ⟨r, h1.frame ?_ ha.sent trivial⟩
    simpa [Net.refuse] using Dir.same_close _
  | swapResponder h =>
    obtain ⟨r, ha⟩ := hi.after (by simp [h, RespPc.resent])
    have hc := ha.carried
    rw [h] at hc
    exact Or.inr ⟨r, ha.frame (Dir.same_refl _) ha.sent hc⟩
  | cancelResponder h =>
    obtain ⟨r, ha⟩ := hi.after (by simp [h, RespPc.resent])
    have hc := ha.carried
    rw [h] at hc
    exact Or.inr ⟨r, ha.frame (by simpa using Dir.same_refl _) ha.sent hc⟩

theorem phase_init : Phase (init L) := by
  refine Or.inl ⟨rfl, rfl, fun _ => rfl, ?_, rfl⟩
  rintro p (⟨m, h⟩ | ⟨m, h⟩ | h | h) <;> simp [init] at h

theorem phase_ordered (h : Phase s) :
    (s.dirs .initiator).returned <+: (s.dirs .initiator).accepted := by
  rcases h with h | ⟨r, h⟩
  · rw [h.relay]
    exact List.prefix_append _ _
  · have hvia : (s.dirs .initiator).viaDirect <+: (s.dirs .initiator).overDirect := by
      rw [Dir.overDirect, List.append_assoc]
      exact List.prefix_append _ _
    rw [h.returned]
    exact append_window h.start (hvia.trans h.window)

/-- **When a migration delivers the responder's bytes exactly once.** In every run in which the
initiator's reads off the relay are over and counted when it takes its positions, and the
responder's writes on the relay when it takes its retransmit, what the initiator has returned is at
every moment a prefix of what the responder wrote. -/
theorem backward_exactly_once (hL : L.Lawful)
    (h : (machine L).ReachWhile (fun s a => quiet s a = true) s) :
    (s.dirs .initiator).returned <+: (s.dirs .initiator).accepted := by
  have hinv : Wired s ∧ Phase s := by
    refine Machine.ReachWhile.invariant (M := machine L) (I := fun s => Wired s ∧ Phase s)
      ⟨wired_init, phase_init⟩ ?_ h
    rintro s a s' - ⟨hw, hp⟩ hq hs
    exact ⟨wired_step hw (step_moves hs), phase_step hL hw hp hq (step_moves hs)⟩
  exact phase_ordered hinv.2

/-- A migration with the responder's bytes partly read: it writes two bytes on the relay, the
initiator returns one, the responder retransmits the other and writes a third on the direct
stream. -/
def quietRun : List (Act ℕ) :=
  [.write .responder [1, 2], .writeCapture .responder, .innerWrite .responder 2,
   .onWrite .responder, .readCapture .initiator, .innerRead .initiator 1, .onRead .initiator,
   .openStream, .resumePayload, .writeResume, .swapInner .initiator, .cancelRead .initiator,
   .parseFrame, .lookup, .retransmitFrom, .writeGap, .swapInner .responder,
   .cancelRead .responder, .write .responder [3], .writeCapture .responder,
   .innerWrite .responder 1, .onWrite .responder, .readCapture .initiator,
   .innerRead .initiator 2, .onRead .initiator]

theorem backward_exactly_once_quietRun : ∃ s,
    (machine (ResumeLib.ringLib (Cell ℕ) 8)).ReachWhile (fun s a => quiet s a = true) s ∧
    (s.dirs .initiator).returned.map Prod.fst = [1, 2, 3] ∧
    (s.dirs .initiator).returned <+: (s.dirs .initiator).accepted := by
  have hr := Machine.reachWhile_of_run (M := machine (ResumeLib.ringLib (Cell ℕ) 8)) (C := quiet)
    quietRun rfl
  exact ⟨_, hr, rfl, backward_exactly_once (ResumeLib.ringLib_lawful _ 8) hr⟩

/-- The initiator's parked `Read` takes a byte off the relay between `ResumePayload` and
`SwapInner`; the responder, asked for everything from position 0, sends it again. -/
def repeatRun : List (Act ℕ) :=
  [.readCapture .initiator, .openStream, .resumePayload, .write .responder [1],
   .writeCapture .responder, .innerWrite .responder 1, .onWrite .responder,
   .innerRead .initiator 1, .onRead .initiator, .writeResume, .swapInner .initiator,
   .cancelRead .initiator, .parseFrame, .lookup, .retransmitFrom, .writeGap,
   .swapInner .responder, .cancelRead .responder, .readCapture .initiator,
   .innerRead .initiator 1, .onRead .initiator]

/-- **The responder's byte is returned twice.** -/
theorem backward_repeats : ∃ s, (machine (ResumeLib.ringLib (Cell ℕ) 8)).Reach s ∧
    s.ipc = .done ∧ s.rpc = .done ∧
    (s.dirs .initiator).accepted.map Prod.fst = [1] ∧
    (s.dirs .initiator).returned.map Prod.fst = [1, 1] ∧
    ¬ (s.dirs .initiator).returned <+: (s.dirs .initiator).accepted := by
  refine ⟨_, Machine.reach_of_run repeatRun rfl, rfl, rfl, rfl, rfl, ?_⟩
  decide

end OutRelayAgent.Migrate
