import OutRelayAgent.Lib.Machine
import Mathlib.Data.Finset.Card
import Mathlib.Logic.Function.Basic

/-!
# The transports of a promoted stream

Model of what a consumer's stream opens and closes: `runConsumer`'s goroutine and `tryPromote`
(`main.go:385-483`), `MigrateToDirect` (`promote.go:568-587`), and `Close`, `SwapInner` and
`CloseWrite` of the wrapper (`session.go:550-617`). A session has any number of such streams.

* **A stream** starts with its relay stream as the inner. Data flows, the bridge half-closes the
  inner by `CloseWrite`, and closes the wrapper at its end (`runConsumer` once more). `CloseWrite`
  is the inner's own if it has one, and its `Close` if not. `Close` closes the inner that it reads.
* **`tryPromote`** runs beside it: it waits, gets a direct connection from `Promote` (or none),
  opens a direct stream on it, writes `STREAM_RESUME` there, and lets `SwapInner` replace the inner.
  If the stream cannot be opened or written, it closes the connection. How `Promote` comes by a
  connection is in `P2p/Promoter.lean`.
* **`SwapInner`** cancels the reading of the inner it replaces.
* The relay connection stays the same. A reconnect, which closes it with all its streams, is in
  `Session/Reconnect.lean`.

The comment on `Check` says of the connection that "the caller closes it when the stream migrates
back to relay or terminates". After a migration nobody has it.

* `transports_released_iff`: a stream that has ended has released its transports exactly if no
  `STREAM_RESUME` was written on a direct stream for it. As long as none is written, the open
  transports of a session are bounded by the streams that are open or being promoted. The
  connection of a stream for which one is written stays open for ever, and so does the relay stream
  that is superseded.
* `migrated_leaks`: a stream that is promoted and closed.
-/

namespace OutRelayAgent.Release

open Lib

/-- A connection or a transport stream. -/
inductive Handle
  | absent
  | up
  /-- Reading has been cancelled. -/
  | cancelled
  | closed
  deriving DecidableEq

namespace Handle

def isOpen : Handle → Bool
  | up => true
  | cancelled => true
  | _ => false

def close : Handle → Handle
  | absent => absent
  | _ => closed

def cancelRead : Handle → Handle
  | up => cancelled
  | h => h

end Handle

/-- Which stream is the inner. -/
inductive Inner
  | relay
  | direct
  deriving DecidableEq

inductive Stage
  | absent
  | live
  /-- `Close` has been called and has returned. -/
  | closed
  deriving DecidableEq

/-- Where `tryPromote` is. -/
inductive Task
  | absent
  | waiting
  /-- In `Promote`. -/
  | promoting
  /-- In `MigrateToDirect`: `OpenStream`, `WriteFrame`, `SwapInner`. -/
  | opening
  | resuming
  | swapping
  /-- `MigrateToDirect` has failed. -/
  | closingConn
  | ended
  deriving DecidableEq

def Task.inProgress : Task → Bool
  | absent => false
  | ended => false
  | _ => true

structure Stream where
  stage : Stage
  inner : Inner
  relay : Handle
  direct : Handle
  conn : Handle
  task : Task
  /-- `STREAM_RESUME` has been written on the direct stream; read by no step. -/
  resumeSent : Bool
  deriving DecidableEq

inductive Event
  /-- A `Read` or a `Write`. -/
  | io
  /-- `CloseWrite`, of an inner that has this method or not. -/
  | closeWrite (hasCloseWrite : Bool)
  | close
  /-- The next step of `tryPromote`, and whether what it calls succeeds. -/
  | task (ok : Bool)

namespace Stream

def none : Stream := ⟨.absent, .relay, .absent, .absent, .absent, .absent, false⟩

/-- After `Dial`. -/
def dialled : Stream := ⟨.live, .relay, .up, .absent, .absent, .waiting, false⟩

def closeInner (s : Stream) : Stream :=
  match s.inner with
  | .relay => { s with relay := s.relay.close }
  | .direct => { s with direct := s.direct.close }

/-- `tryPromote`, with `MigrateToDirect`. -/
def tryPromote (s : Stream) (ok : Bool) : Option Stream :=
  match s.task, ok with
  | .waiting, true => some { s with task := .promoting }
  | .waiting, false => some { s with task := .ended }
  | .promoting, true => some { s with conn := .up, task := .opening }
  | .promoting, false => some { s with task := .ended }
  | .opening, true => some { s with direct := .up, task := .resuming }
  | .opening, false => some { s with task := .closingConn }
  | .resuming, true => some { s with task := .swapping, resumeSent := true }
  | .resuming, false => some { s with direct := s.direct.close, task := .closingConn }
  | .swapping, _ => some { s with inner := .direct, relay := s.relay.cancelRead, task := .ended }
  | .closingConn, _ => some { s with conn := s.conn.close, task := .ended }
  | .absent, _ => Option.none
  | .ended, _ => Option.none

def next (s : Stream) : Event → Option Stream
  | .io => if s.stage = .live then some s else Option.none
  | .closeWrite hasCloseWrite =>
    if s.stage = .live then some (if hasCloseWrite then s else s.closeInner) else Option.none
  | .close =>
    if s.stage = .absent then Option.none else some { s.closeInner with stage := .closed }
  | .task ok => s.tryPromote ok

end Stream

structure World where
  streams : ℕ → Stream
  count : ℕ

inductive Act
  | dial
  | stream (k : ℕ) (e : Event)

def step (w : World) : Act → Option World
  | .dial => some ⟨Function.update w.streams w.count .dialled, w.count + 1⟩
  | .stream k e => ((w.streams k).next e).map fun s => ⟨Function.update w.streams k s, w.count⟩

/-- A session without streams. -/
def machine : Machine World Act where
  init := ⟨fun _ => .none, 0⟩
  step := step

/-! ## The condition and the property -/

/-- No transport of the stream is open. -/
structure Stream.Released (s : Stream) : Prop where
  relay : s.relay.isOpen = false
  direct : s.direct.isOpen = false
  conn : s.conn.isOpen = false

namespace World

/-- The streams of which something holds. -/
def those (w : World) (p : Stream → Bool) : Finset ℕ :=
  (Finset.range w.count).filter fun k => p (w.streams k)

def openConns (w : World) : ℕ := (w.those fun s => s.conn.isOpen).card

def openStreams (w : World) : ℕ :=
  (w.those fun s => s.relay.isOpen).card + (w.those fun s => s.direct.isOpen).card

def live (w : World) : ℕ := (w.those fun s => s.stage = .live).card

def promoting (w : World) : ℕ := (w.those fun s => s.task.inProgress).card

def migrated (w : World) : ℕ := (w.those fun s => s.resumeSent).card

end World

/-- `STREAM_RESUME` is not written on a direct stream. -/
def unsent (w : World) : Act → Bool
  | .stream k (.task true) => (w.streams k).task != .resuming
  | _ => true

/-! ## One stream -/

@[simp] theorem Handle.isOpen_close (h : Handle) : h.close.isOpen = false := by
  cases h <;> rfl

namespace Stream

variable {s s' : Stream} {e : Event}

/-- What `tryPromote` has done to the inner, the direct stream and the connection, and whether
`STREAM_RESUME` has been written. -/
inductive Shape : Task → Inner → Handle → Handle → Bool → Prop
  | absent : Shape .absent .relay .absent .absent false
  | waiting : Shape .waiting .relay .absent .absent false
  | promoting : Shape .promoting .relay .absent .absent false
  | opening : Shape .opening .relay .absent .up false
  | resuming : Shape .resuming .relay .up .up false
  | closingConn (d : Handle) (hd : d.isOpen = false) : Shape .closingConn .relay d .up false
  | unmigrated (d c : Handle) (hd : d.isOpen = false) (hc : c.isOpen = false) :
      Shape .ended .relay d c false
  | swapping : Shape .swapping .relay .up .up true
  | migrated (d : Handle) : Shape .ended .direct d .up true

/-- What holds of every stream. -/
structure Ok (s : Stream) : Prop where
  shape : Shape s.task s.inner s.direct s.conn s.resumeSent
  /-- `Close` closes the inner. -/
  relay : s.inner = .relay → s.relay.isOpen = true → s.stage = .live

theorem ok_none : Ok none := ⟨.absent, fun _ => nofun⟩

theorem ok_dialled : Ok dialled := ⟨.waiting, fun _ _ => rfl⟩

theorem Ok.closeInner (h : s.Ok) :
    s.closeInner.Ok ∧ (s.inner = .relay → s.closeInner.relay.isOpen = false) := by
  unfold Stream.closeInner
  split
  · rename_i hinner
    exact ⟨⟨h.shape, fun _ hr => by simp at hr⟩, fun _ => Handle.isOpen_close _⟩
  · rename_i hinner
    have hshape := h.shape
    rw [hinner] at hshape
    refine ⟨⟨?_, fun hi => by simp [hinner] at hi⟩, fun hi => by simp [hinner] at hi⟩
    change Shape s.task s.inner s.direct.close s.conn s.resumeSent
    rw [hinner]
    generalize s.task = t, s.direct = d, s.conn = c, s.resumeSent = b at hshape
    cases hshape
    exact .migrated _

theorem closeInner_same (s : Stream) :
    s.closeInner.inner = s.inner ∧ s.closeInner.resumeSent = s.resumeSent := by
  unfold Stream.closeInner
  split <;> exact ⟨rfl, rfl⟩

theorem Ok.close (h : s.Ok) : ({ s.closeInner with stage := .closed } : Stream).Ok := by
  obtain ⟨hok, hclosed⟩ := h.closeInner
  refine ⟨hok.shape, fun hi hr => ?_⟩
  have hi' : s.inner = .relay := (closeInner_same s).1 ▸ hi
  have hr' : s.closeInner.relay.isOpen = true := hr
  rw [hclosed hi'] at hr'
  cases hr'

theorem Ok.tryPromote (h : s.Ok) {ok : Bool} (hst : s.tryPromote ok = some s') : s'.Ok := by
  obtain ⟨stage, inner, relay, direct, conn, task, sent⟩ := s
  have hshape : Shape task inner direct conn sent := h.shape
  have hrelay : inner = .relay → relay.isOpen = true → stage = .live := h.relay
  cases hshape with
  | absent | unmigrated | migrated => cases hst
  | waiting =>
    cases ok <;> cases hst
    · exact ⟨.unmigrated _ _ rfl rfl, hrelay⟩
    · exact ⟨.promoting, hrelay⟩
  | promoting =>
    cases ok <;> cases hst
    · exact ⟨.unmigrated _ _ rfl rfl, hrelay⟩
    · exact ⟨.opening, hrelay⟩
  | opening =>
    cases ok <;> cases hst
    · exact ⟨.closingConn _ rfl, hrelay⟩
    · exact ⟨.resuming, hrelay⟩
  | resuming =>
    cases ok <;> cases hst
    · exact ⟨.closingConn _ rfl, hrelay⟩
    · exact ⟨.swapping, hrelay⟩
  | closingConn d hd =>
    cases hst
    exact ⟨.unmigrated _ _ hd rfl, hrelay⟩
  | swapping =>
    cases hst
    exact ⟨.migrated _, nofun⟩

/-- What a step of a stream does. -/
theorem next_cases (hst : s.next e = some s') :
    s' = s ∨ s' = s.closeInner ∨ s' = { s.closeInner with stage := .closed } ∨
      ∃ ok, e = .task ok ∧ s.tryPromote ok = some s' := by
  cases e with
  | io =>
    obtain ⟨-, hst⟩ := Option.ite_none_right_eq_some.mp hst
    exact .inl (Option.some.inj hst).symm
  | closeWrite hasCloseWrite =>
    obtain ⟨-, hst⟩ := Option.ite_none_right_eq_some.mp hst
    obtain rfl := Option.some.inj hst
    cases hasCloseWrite with
    | true => exact .inl rfl
    | false => exact .inr (.inl rfl)
  | close =>
    obtain ⟨-, hst⟩ := Option.ite_none_left_eq_some.mp hst
    exact .inr (.inr (.inl (Option.some.inj hst).symm))
  | task ok => exact .inr (.inr (.inr ⟨ok, rfl, hst⟩))

theorem Ok.next (h : s.Ok) (hst : s.next e = some s') : s'.Ok := by
  rcases next_cases hst with rfl | rfl | rfl | ⟨ok, -, hst⟩
  · exact h
  · exact h.closeInner.1
  · exact h.close
  · exact h.tryPromote hst

theorem Ok.conn_up (h : s.Ok) (hsent : s.resumeSent = true) : s.conn = .up := by
  have hshape := h.shape
  rw [hsent] at hshape
  generalize s.task = t, s.inner = i, s.direct = d, s.conn = c at hshape
  cases hshape <;> rfl

/-- What is open of a stream for which nothing was sent on a direct stream. -/
theorem Ok.unsent (h : s.Ok) (hsent : s.resumeSent = false) :
    (s.conn.isOpen = true → s.task.inProgress = true) ∧
      (s.direct.isOpen = true → s.task.inProgress = true) ∧
      (s.relay.isOpen = true → s.stage = .live) := by
  have hshape := h.shape
  have hrelay := h.relay
  rw [hsent] at hshape
  generalize s.task = t, s.inner = i, s.direct = d, s.conn = c at hshape hrelay
  cases hshape with
  | absent => exact ⟨nofun, nofun, hrelay rfl⟩
  | waiting | promoting | opening | resuming | closingConn =>
    exact ⟨fun _ => rfl, fun _ => rfl, hrelay rfl⟩
  | unmigrated d c hd hc => exact ⟨by simp [hc], by simp [hd], hrelay rfl⟩

/-- **A stream that has ended**, with its promotion, is released exactly if nothing was sent. -/
theorem Ok.released_iff (h : s.Ok) (hstage : s.stage = .closed) (htask : s.task = .ended) :
    s.Released ↔ s.resumeSent = false := by
  constructor
  · intro hrel
    refine Bool.eq_false_iff.mpr fun hsent => ?_
    have hconn := hrel.conn
    rw [h.conn_up hsent] at hconn
    cases hconn
  · intro hsent
    obtain ⟨hconn, hdirect, hrelay⟩ := h.unsent hsent
    rw [htask] at hconn hdirect
    rw [hstage] at hrelay
    refine ⟨?_, ?_, ?_⟩
    · exact Bool.eq_false_iff.mpr fun hr => by cases hrelay hr
    · exact Bool.eq_false_iff.mpr fun hd => by cases hdirect hd
    · exact Bool.eq_false_iff.mpr fun hc => by cases hconn hc

/-- Only a step from `resuming` sends `STREAM_RESUME`. -/
theorem next_sent (hst : s.next e = some s') :
    s'.resumeSent = s.resumeSent ∨
      (e = .task true ∧ s.task = .resuming ∧ s'.resumeSent = true) := by
  rcases next_cases hst with rfl | rfl | rfl | ⟨ok, rfl, hpromote⟩
  · exact .inl rfl
  · exact .inl (closeInner_same s).2
  · exact .inl (closeInner_same s).2
  · unfold Stream.tryPromote at hpromote
    split at hpromote
    all_goals cases hpromote
    all_goals first
      | exact .inl rfl
      | exact .inr ⟨rfl, ‹_›, rfl⟩

/-- The relay stream has been superseded while it was open. -/
structure Superseded (s : Stream) : Prop where
  inner : s.inner = .direct
  relay : s.relay = .cancelled

theorem Superseded.next (h : s.Superseded) (hok : s.Ok) (hst : s.next e = some s') :
    s'.Superseded := by
  have hclose : s.closeInner.Superseded := by
    unfold Stream.closeInner
    split
    · rename_i hinner
      rw [h.inner] at hinner
      cases hinner
    · exact ⟨h.inner, h.relay⟩
  rcases next_cases hst with rfl | rfl | rfl | ⟨ok, -, hst⟩
  · exact h
  · exact hclose
  · exact ⟨hclose.inner, hclose.relay⟩
  · have hended : s.task = .ended := by
      have hshape := hok.shape
      rw [h.inner] at hshape
      generalize s.task = t, s.direct = d, s.conn = c, s.resumeSent = b at hshape
      cases hshape
      rfl
    unfold Stream.tryPromote at hst
    rw [hended] at hst
    cases ok <;> cases hst

end Stream

/-! ## The session -/

section Session

variable {w w' : World} {a : Act} {k : ℕ}

/-- What a step does to the stream `k`. -/
theorem step_stream (hst : step w a = some w') (k : ℕ) :
    w'.streams k = w.streams k ∨ (k = w.count ∧ w'.streams k = .dialled) ∨
      ∃ e, a = .stream k e ∧ (w.streams k).next e = some (w'.streams k) := by
  cases a with
  | dial =>
    obtain rfl := Option.some.inj hst
    rcases eq_or_ne k w.count with rfl | hk
    · exact .inr (.inl ⟨rfl, Function.update_self ..⟩)
    · exact .inl (Function.update_of_ne hk ..)
  | stream j e =>
    obtain ⟨s, hs, rfl⟩ := Option.map_eq_some_iff.mp hst
    rcases eq_or_ne k j with rfl | hk
    · exact .inr (.inr ⟨e, rfl, by simpa using hs⟩)
    · exact .inl (Function.update_of_ne hk ..)

/-- What holds in every run. -/
structure Inv (w : World) : Prop where
  ok : ∀ k, (w.streams k).Ok
  absent : ∀ k, w.count ≤ k → w.streams k = .none

theorem Inv.step (hi : Inv w) (hst : step w a = some w') : Inv w' := by
  refine ⟨fun k => ?_, fun k hk => ?_⟩
  · rcases step_stream hst k with hsame | ⟨-, hnew⟩ | ⟨e, -, hnext⟩
    · rw [hsame]
      exact hi.ok k
    · rw [hnew]
      exact Stream.ok_dialled
    · exact (hi.ok k).next hnext
  · cases a with
    | dial =>
      obtain rfl := Option.some.inj hst
      have hlt : w.count < k := hk
      simpa [Nat.ne_of_gt hlt] using hi.absent k (Nat.le_of_lt hlt)
    | stream j e =>
      obtain ⟨s, hs, rfl⟩ := Option.map_eq_some_iff.mp hst
      have habsent := hi.absent k hk
      rcases eq_or_ne k j with rfl | hkj
      · rw [habsent] at hs
        cases e <;> cases hs
      · simpa [hkj] using habsent

theorem inv_reach (h : machine.Reach w) : Inv w :=
  Machine.Reach.invariant (M := machine) (I := Inv) ⟨fun _ => Stream.ok_none, fun _ _ => rfl⟩
    (fun _ _ _ hi hst => hi.step hst) h

/-- What a stream in use keeps through its own steps it keeps for ever. -/
theorem stays {Q : Stream → Prop} (hQ : ¬ Q .none)
    (hnext : ∀ {s e s'}, s.Ok → Q s → s.next e = some s' → Q s') (hr : machine.Reach w)
    (h : Q (w.streams k)) (hw : machine.ReachFrom w w') : Q (w'.streams k) := by
  refine Machine.ReachFrom.invariant (M := machine) (I := fun w => Q (w.streams k)) hr h ?_ hw
  intro t b t' ht hi hst
  rcases step_stream hst k with hsame | ⟨hcount, -⟩ | ⟨e, -, hstep⟩
  · rw [hsame]
    exact hi
  · rw [(inv_reach ht).absent k (Nat.le_of_eq hcount.symm)] at hi
    exact absurd hi hQ
  · exact hnext ((inv_reach ht).ok k) hi hstep

theorem unsent_reach (h : machine.ReachWhile (fun w a => unsent w a = true) w) (k : ℕ) :
    (w.streams k).resumeSent = false := by
  refine Machine.ReachWhile.invariant (M := machine)
    (I := fun w => ∀ k, (w.streams k).resumeSent = false) (fun _ => rfl) ?_ h k
  intro w a w' hr hi hunsent hst k
  rcases step_stream hst k with hsame | ⟨-, hnew⟩ | ⟨e, rfl, hnext⟩
  · rw [hsame]
    exact hi k
  · rw [hnew]
    rfl
  · rcases Stream.next_sent hnext with hsame | ⟨rfl, htask, -⟩
    · rw [hsame]
      exact hi k
    · simp [unsent, htask] at hunsent

/-- The streams of which `p` holds are at most those of which `q` holds. -/
theorem those_le {p q : Stream → Bool} (h : ∀ k, p (w.streams k) = true → q (w.streams k) = true) :
    (w.those p).card ≤ (w.those q).card := by
  refine Finset.card_le_card fun k hk => ?_
  obtain ⟨hlt, hp⟩ := Finset.mem_filter.mp hk
  exact Finset.mem_filter.mpr ⟨hlt, h k hp⟩

theorem bounded (h : machine.ReachWhile (fun w a => unsent w a = true) w) :
    w.openConns ≤ w.promoting ∧ w.openStreams ≤ w.live + w.promoting := by
  have hopen : ∀ k, _ := fun k => ((inv_reach h.reach).ok k).unsent (unsent_reach h k)
  refine ⟨those_le fun k => (hopen k).1, Nat.add_le_add (those_le fun k hr => ?_) ?_⟩
  · exact decide_eq_true ((hopen k).2.2 hr)
  · exact those_le fun k => (hopen k).2.1

theorem migrated_le (h : machine.Reach w) : w.migrated ≤ w.openConns := by
  refine those_le fun k hsent => ?_
  rw [((inv_reach h).ok k).conn_up hsent]
  rfl

/-- A connection over which a stream has migrated stays open. -/
theorem conn_stays (hr : machine.Reach w) (hst : machine.step w a = some w')
    (hunsent : unsent w a = false) :
    ∃ k, ∀ w'', machine.ReachFrom w' w'' → (w''.streams k).conn = .up := by
  obtain ⟨k, rfl, htask⟩ : ∃ k, a = .stream k (.task true) ∧ (w.streams k).task = .resuming := by
    cases a with
    | dial => cases hunsent
    | stream k e =>
      cases e with
      | task ok =>
        cases ok with
        | true => exact ⟨k, rfl, by simpa [unsent] using hunsent⟩
        | false => cases hunsent
      | io | closeWrite | close => cases hunsent
  have hsent : (w'.streams k).resumeSent = true := by
    obtain ⟨s, hs, rfl⟩ := Option.map_eq_some_iff.mp hst
    change (w.streams k).tryPromote true = some s at hs
    unfold Stream.tryPromote at hs
    rw [htask] at hs
    obtain rfl := Option.some.inj hs
    simp
  refine ⟨k, fun w'' hw => ?_⟩
  have hr' := hr.step hst
  refine ((inv_reach (hr'.trans hw)).ok k).conn_up ?_
  refine stays (Q := fun s => s.resumeSent = true) nofun ?_ hr' hsent hw
  intro s e s' _ hs hnext
  rcases Stream.next_sent hnext with hsame | ⟨-, -, htrue⟩
  · rw [hsame]
    exact hs
  · exact htrue

/-- An open relay stream that is superseded stays open. -/
theorem superseded_stays {ok : Bool} (hr : machine.Reach w)
    (htask : (w.streams k).task = .swapping) (hrelay : (w.streams k).relay = .up)
    (hst : machine.step w (.stream k (.task ok)) = some w') (hw : machine.ReachFrom w' w'') :
    (w''.streams k).relay = .cancelled := by
  have hsuperseded : (w'.streams k).Superseded := by
    obtain ⟨s, hs, rfl⟩ := Option.map_eq_some_iff.mp hst
    change (w.streams k).tryPromote ok = some s at hs
    unfold Stream.tryPromote at hs
    rw [htask] at hs
    have hs' : { w.streams k with
        inner := .direct, relay := (w.streams k).relay.cancelRead, task := .ended } = s := by
      cases ok <;> exact Option.some.inj hs
    subst hs'
    refine ⟨by simp, ?_⟩
    simp [hrelay, Handle.cancelRead]
  exact (stays (Q := Stream.Superseded) (fun h => by cases h.inner)
    (fun hok h hnext => h.next hok hnext) (hr.step hst) hsuperseded hw).relay

end Session

/-- **An ended stream has released its transports exactly if `STREAM_RESUME` was never written on a
direct stream for it.** In a session in which this never happens, open connections belong to
promotions in progress and open streams to those and to live streams. Each stream for which it
happens leaves a connection open for ever, and the relay stream that `SwapInner` replaces unless it
was closed before. -/
theorem transports_released_iff (w : World) (hr : machine.Reach w) :
    (∀ k, (w.streams k).stage = .closed → (w.streams k).task = .ended →
      ((w.streams k).Released ↔ (w.streams k).resumeSent = false)) ∧
    (machine.ReachWhile (fun w a => unsent w a = true) w →
      w.openConns ≤ w.promoting ∧ w.openStreams ≤ w.live + w.promoting) ∧
    w.migrated ≤ w.openConns ∧
    (∀ a w', machine.step w a = some w' → unsent w a = false →
      ∃ k, ∀ w'', machine.ReachFrom w' w'' → (w''.streams k).conn = .up) ∧
    ∀ k ok w' w'', (w.streams k).task = .swapping → (w.streams k).relay = .up →
      machine.step w (.stream k (.task ok)) = some w' → machine.ReachFrom w' w'' →
      (w''.streams k).relay = .cancelled :=
  ⟨fun k hstage htask => ((inv_reach hr).ok k).released_iff hstage htask, bounded, migrated_le hr,
    fun _ _ hst hunsent => conn_stays hr hst hunsent,
    fun _ _ _ _ htask hrelay hst hw => superseded_stays hr htask hrelay hst hw⟩

/-- A direct connection is found and a direct stream opened, on which nothing can be written. -/
def writeFails : List Act :=
  [.dial, .stream 0 (.task true), .stream 0 .io, .stream 0 (.task true), .stream 0 (.task true),
   .stream 0 (.task false), .stream 0 (.closeWrite false), .stream 0 (.task true), .stream 0 .close,
   .stream 0 .close]

theorem writeFails_released : ∃ w, machine.run machine.init writeFails = some w ∧
    (w.streams 0).stage = .closed ∧ (w.streams 0).task = .ended ∧ (w.streams 0).conn = .closed ∧
    (w.streams 0).Released := by
  have hrun : ∃ w, machine.run machine.init writeFails = some w ∧
      (w.streams 0).stage = .closed ∧ (w.streams 0).task = .ended ∧
      (w.streams 0).conn = .closed ∧ (w.streams 0).resumeSent = false :=
    ⟨_, rfl, rfl, rfl, rfl, rfl⟩
  obtain ⟨w, hrun, hstage, htask, hconn, hunsent⟩ := hrun
  have hr := Machine.reach_of_run (M := machine) writeFails hrun
  exact ⟨w, hrun, hstage, htask, hconn,
    ((transports_released_iff w hr).1 0 hstage htask).mpr hunsent⟩

/-- The stream is promoted, carries data and is closed. -/
def promotedThenClosed : List Act :=
  [.dial, .stream 0 (.task true), .stream 0 (.task true), .stream 0 (.task true),
   .stream 0 (.task true), .stream 0 (.task true), .stream 0 .io, .stream 0 (.closeWrite false),
   .stream 0 .close, .stream 0 .close]

/-- **Two transports that stay open.** No stream is live and no promotion in progress. -/
theorem migrated_leaks : ∃ w, machine.run machine.init promotedThenClosed = some w ∧
    (w.streams 0).stage = .closed ∧ (w.streams 0).task = .ended ∧ (w.streams 0).conn = .up ∧
    (w.streams 0).relay = .cancelled ∧ (w.streams 0).direct = .closed ∧
    w.live = 0 ∧ w.promoting = 0 ∧ w.openConns = 1 ∧ w.openStreams = 1 :=
  ⟨_, rfl, rfl, rfl, rfl, rfl, rfl, rfl, rfl, rfl, rfl⟩

end OutRelayAgent.Release
