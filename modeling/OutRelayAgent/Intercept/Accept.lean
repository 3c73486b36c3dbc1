import OutRelayAgent.Intercept.Dns
import OutRelayAgent.Lib.Custody
import OutRelayAgent.Lib.Machine

/-!
# The accept loops of the interceptors

Model of both implementations of `Interceptor`: `NewExplicit`, `acceptLoop`, `Accept`, `Close` and
`closeListeners` (`explicit.go:32-126`), and `NewTProxy`, `acceptLoop`, `Accept` and `Close`
(`tproxy_linux.go:48-143`).

* **The constructor** binds one listener after the other and starts a loop for each at once. When a
  `net.Listen` fails it closes the listeners it has, one by one, and returns the error. `NewTProxy`
  is the case of one listener.
* **A loop** accepts connections. `explicit` hands each over; `tproxy` closes one that is not TCP,
  has no original destination or is not to an allocated address. A listener's `Accept` may fail at
  any time; it returns no connection once the listener has been closed. A loop whose `Accept` has
  failed looks whether `Close` was called. If not, `explicit` offers the error to the buffer `errs`
  of one, `tproxy` does nothing, and the loop ends.
* **The hand-over** is over the unbuffered channel `accepts`: a step of a loop and of a call of
  `Accept` together. Any number of calls are under way.
* **`Close`** closes the channel `closed`, then the listeners. A further call waits for the first.

What is here holds for both implementations, in every run:

* `step_moves`, `explicit_loop`, `tproxy_loop`: what a step can do.
* `kept_reach`: each accepted connection is with the loop of its listener, with one call of
  `Accept`, or closed (`Kept`).
* `gates_reach`: what the constructor and `Close` have closed (`Gates`).
-/

namespace OutRelayAgent.Accept

open Lib
open Intercept (Addr VIPAllocator)

structure ExplicitMapping where
  bindAddr : Bytes
  targetSvc : Bytes

/-- What a listener's `Accept` has returned: a connection that is not TCP, or one with the result of
`SO_ORIGINAL_DST`. -/
inductive Kind
  | other
  | tcp (origDst : Option (Addr × ℕ))

inductive OrigDest
  /-- The address of the listener. -/
  | listener (i : ℕ)
  | original (dst : Addr × ℕ)

structure InterceptedConn where
  /-- The number of the connection. -/
  conn : ℕ
  origDest : OrigDest
  targetSvc : Bytes

inductive Reason
  | closed
  | error
  deriving DecidableEq

inductive Loop
  | absent
  | accepting
  /-- `Accept` has failed, and `closed` is to be looked at. -/
  | failing
  /-- In the `select` that sends on `accepts`. -/
  | handing (ic : InterceptedConn)
  | ended (reason : Reason)

/-- What happens next in a loop. -/
inductive Choice
  | accept (kind : Kind)
  | fail
  | go

/-- What a step of a loop does. -/
inductive Effect
  | nothing
  /-- A connection has been accepted, and kept or closed. -/
  | keep
  | reject
  /-- `errs <- err` with a default -/
  | surface
  | drop (c : ℕ)

inductive Result
  | conn (ic : InterceptedConn)
  /-- The error of a listener. -/
  | err (i : ℕ)
  /-- `ErrClosed` -/
  | closed
  /-- `ctx.Err()` -/
  | ctx

/-- A call of `Accept`. -/
inductive Call
  | absent
  | selecting
  | returned (r : Result)

/-- The cases of the `select` in `Accept` other than `accepts`. -/
inductive Case
  | err
  | closed
  | ctx

/-- An implementation, with its number of listeners. -/
structure Impl where
  listeners : ℕ
  /-- The loop of the listener `i`; a connection it accepts has the number `c`. -/
  acceptLoop : (i c : ℕ) → (closed : Bool) → Loop → Choice → Option (Loop × Effect)
  accept : (errs : Option ℕ) → (closed : Bool) → Case → Option Result

def explicit.acceptLoop (svc : Bytes) (i c : ℕ) (closed : Bool) :
    Loop → Choice → Option (Loop × Effect)
  | .accepting, .accept _ => some (.handing ⟨c, .listener i, svc⟩, .keep)
  | .accepting, .fail => some (.failing, .nothing)
  | .failing, .go =>
    some (if closed then (.ended .closed, .nothing) else (.ended .error, .surface))
  | .handing ic, .go => if closed then some (.ended .closed, .drop ic.conn) else none
  | _, _ => none

def explicit.accept (errs : Option ℕ) (closed : Bool) : Case → Option Result
  | .err => errs.map .err
  | .closed => if closed then some .closed else none
  | .ctx => some .ctx

def explicit (mappings : List ExplicitMapping) : Impl where
  listeners := mappings.length
  acceptLoop i := explicit.acceptLoop ((mappings.map (·.targetSvc)).getD i []) i
  accept := explicit.accept

def tproxy.acceptLoop (alloc : VIPAllocator) (c : ℕ) (closed : Bool) :
    Loop → Choice → Option (Loop × Effect)
  | .accepting, .accept .other => some (.accepting, .reject)
  | .accepting, .accept (.tcp none) => some (.accepting, .reject)
  | .accepting, .accept (.tcp (some dst)) =>
    match Intercept.accept alloc dst.1 with
    | none => some (.accepting, .reject)
    | some svc => some (.handing ⟨c, .original dst, svc⟩, .keep)
  | .accepting, .fail => some (.failing, .nothing)
  | .failing, .go => some (.ended (if closed then .closed else .error), .nothing)
  | .handing ic, .go => if closed then some (.ended .closed, .drop ic.conn) else none
  | _, _ => none

def tproxy.accept (closed : Bool) : Case → Option Result
  | .err => none
  | .closed => if closed then some .closed else none
  | .ctx => some .ctx

def tproxy (alloc : VIPAllocator) : Impl where
  listeners := 1
  acceptLoop _ := tproxy.acceptLoop alloc
  accept _ := tproxy.accept

/-! ## The interceptor -/

inductive Holder
  | loop (i : ℕ)
  | call (j : ℕ)
  deriving DecidableEq

/-- An accepted connection: its listener, and who has it unless the interceptor has closed it. Read
by no step. -/
structure Conn where
  listener : ℕ
  holder : Option Holder

/-- The constructor. An error is about the mapping number `bound`, or there are no mappings. -/
inductive Ctor
  | binding
  /-- In `closeListeners`, `j` listeners have been closed. -/
  | closing (j : ℕ)
  | failed
  | ready
  deriving DecidableEq

inductive Closer
  | idle
  | closing (j : ℕ)
  | done
  deriving DecidableEq

structure World where
  ctor : Ctor
  /-- How many listeners have been bound. -/
  bound : ℕ
  /-- Which listeners have been closed. -/
  shut : ℕ → Bool
  loops : ℕ → Loop
  /-- `errs`: the listener whose error it holds. -/
  errs : Option ℕ
  /-- The channel `closed` is closed. -/
  closed : Bool
  closer : Closer
  calls : ℕ → Call
  callCount : ℕ
  conns : ℕ → Conn
  connCount : ℕ

inductive Act
  /-- The constructor's next `net.Listen`. -/
  | listen (ok : Bool)
  /-- The constructor closes the next listener, or returns its error. -/
  | unbind
  | loop (i : ℕ) (c : Choice)
  | handover (i j : ℕ)
  | startAccept
  | accept (j : ℕ) (c : Case)
  | close
  /-- `Close` closes the next listener, or returns. -/
  | closeNext

namespace World

def setLoop (w : World) (i : ℕ) (l : Loop) : World :=
  { w with loops := Function.update w.loops i l }

def setCall (w : World) (j : ℕ) (r : Call) : World :=
  { w with calls := Function.update w.calls j r }

def setShut (w : World) (i : ℕ) : World := { w with shut := Function.update w.shut i true }

def setHolder (w : World) (c : ℕ) (h : Option Holder) : World :=
  { w with conns := Function.update w.conns c { w.conns c with holder := h } }

def newConn (w : World) (i : ℕ) (h : Option Holder) : World :=
  { w with conns := Function.update w.conns w.connCount ⟨i, h⟩, connCount := w.connCount + 1 }

def effect (w : World) (i : ℕ) : Effect → World
  | .nothing => w
  | .keep => w.newConn i (some (.loop i))
  | .reject => w.newConn i none
  | .surface => { w with errs := w.errs.or (some i) }
  | .drop c => w.setHolder c none

/-- `errs` after a case of `Accept`. -/
def errsAfter (w : World) : Case → Option ℕ
  | .err => none
  | _ => w.errs

end World

def Choice.isAccept : Choice → Bool
  | .accept _ => true
  | _ => false

def step (P : Impl) (w : World) : Act → Option World
  | .listen ok =>
    if w.ctor = .binding then
      if ok then
        some { w.setLoop w.bound .accepting with
          bound := w.bound + 1
          ctor := if w.bound + 1 = P.listeners then .ready else .binding }
      else some { w with ctor := .closing 0 }
    else none
  | .unbind =>
    match w.ctor with
    | .closing j =>
      if j < w.bound then some { w.setShut j with ctor := .closing (j + 1) }
      else some { w with ctor := .failed }
    | _ => none
  | .loop i c =>
    if c.isAccept ∧ w.shut i then none
    else
      (P.acceptLoop i w.connCount w.closed (w.loops i) c).map fun x =>
        (w.setLoop i x.1).effect i x.2
  | .handover i j =>
    match w.loops i, w.calls j with
    | .handing ic, .selecting =>
      some (((w.setLoop i .accepting).setCall j (.returned (.conn ic))).setHolder ic.conn
        (some (.call j)))
    | _, _ => none
  | .startAccept =>
    if w.ctor = .ready then
      some { w.setCall w.callCount .selecting with callCount := w.callCount + 1 }
    else none
  | .accept j c =>
    match w.calls j with
    | .selecting =>
      (P.accept w.errs w.closed c).map fun r =>
        { w.setCall j (.returned r) with errs := w.errsAfter c }
    | _ => none
  | .close =>
    if w.ctor = .ready ∧ w.closer = .idle then
      some { w with closed := true, closer := .closing 0 }
    else none
  | .closeNext =>
    match w.closer with
    | .closing j =>
      if j < w.bound then some { w.setShut j with closer := .closing (j + 1) }
      else some { w with closer := .done }
    | _ => none

/-- From the call of the constructor. -/
def machine (P : Impl) : Machine World Act where
  init :=
    { ctor := if P.listeners = 0 then .failed else .binding
      bound := 0
      shut := fun _ => false
      loops := fun _ => .absent
      errs := none
      closed := false
      closer := .idle
      calls := fun _ => .absent
      callCount := 0
      conns := fun _ => ⟨0, none⟩
      connCount := 0 }
  step := step P

/-! ## What a step does -/

/-- A step of a loop, in both implementations. -/
inductive LoopMoves (c : ℕ) (closed : Bool) : Loop → Choice → Loop → Effect → Prop
  | keep (kind : Kind) (ic : InterceptedConn) (hconn : ic.conn = c) :
      LoopMoves c closed .accepting (.accept kind) (.handing ic) .keep
  | reject (kind : Kind) : LoopMoves c closed .accepting (.accept kind) .accepting .reject
  | fail : LoopMoves c closed .accepting .fail .failing .nothing
  | stop (hclosed : closed = true) :
      LoopMoves c closed .failing .go (.ended .closed) .nothing
  | error (e : Effect) (hclosed : closed = false) (he : e = .nothing ∨ e = .surface) :
      LoopMoves c closed .failing .go (.ended .error) e
  | drop (ic : InterceptedConn) (hclosed : closed = true) :
      LoopMoves c closed (.handing ic) .go (.ended .closed) (.drop ic.conn)

theorem explicit_loop {svc : Bytes} {i c : ℕ} {closed : Bool} {l l' : Loop} {ch : Choice}
    {e : Effect} (h : explicit.acceptLoop svc i c closed l ch = some (l', e)) :
    LoopMoves c closed l ch l' e ∧ (e = .keep → l' = .handing ⟨c, .listener i, svc⟩) ∧
      (l' = .ended .error → e = .surface) := by
  unfold explicit.acceptLoop at h
  split at h
  · cases h
    exact ⟨.keep _ _ rfl, fun _ => rfl, nofun⟩
  · cases h
    exact ⟨.fail, nofun, nofun⟩
  · cases hclosed : closed with
    | true =>
      rw [hclosed] at h
      cases h
      exact ⟨.stop rfl, nofun, nofun⟩
    | false =>
      rw [hclosed] at h
      cases h
      exact ⟨.error _ rfl (.inr rfl), nofun, fun _ => rfl⟩
  · obtain ⟨hclosed, h⟩ := Option.ite_none_right_eq_some.mp h
    cases h
    exact ⟨.drop _ hclosed, nofun, nofun⟩
  · cases h

theorem tproxy_loop {alloc : VIPAllocator} {c : ℕ} {closed : Bool} {l l' : Loop} {ch : Choice}
    {e : Effect} (h : tproxy.acceptLoop alloc c closed l ch = some (l', e)) :
    LoopMoves c closed l ch l' e := by
  unfold tproxy.acceptLoop at h
  split at h
  · cases h
    exact .reject _
  · cases h
    exact .reject _
  · split at h
    · cases h
      exact .reject _
    · cases h
      exact .keep _ _ rfl
  · cases h
    exact .fail
  · cases hclosed : closed with
    | true =>
      rw [hclosed] at h
      cases h
      exact .stop rfl
    | false =>
      rw [hclosed] at h
      cases h
      exact .error _ rfl (.inl rfl)
  · obtain ⟨hclosed, h⟩ := Option.ite_none_right_eq_some.mp h
    cases h
    exact .drop _ hclosed
  · cases h

/-- The loops of an implementation do what is described, and `Accept` returns a connection only by a
hand-over. -/
structure Impl.Regular (P : Impl) : Prop where
  loop : ∀ {i c closed l ch l' e}, P.acceptLoop i c closed l ch = some (l', e) →
    LoopMoves c closed l ch l' e
  accept : ∀ {errs closed ch r}, P.accept errs closed ch = some r → ∀ ic, r ≠ .conn ic

theorem explicit_regular (mappings : List ExplicitMapping) : (explicit mappings).Regular := by
  refine ⟨fun h => (explicit_loop h).1, fun {errs closed ch r} h ic hr => ?_⟩
  subst hr
  cases ch with
  | err =>
    obtain ⟨i, -, hi⟩ := Option.map_eq_some_iff.mp h
    cases hi
  | closed => cases (Option.ite_none_right_eq_some.mp h).2
  | ctx => cases h

theorem tproxy_regular (alloc : VIPAllocator) : (tproxy alloc).Regular := by
  refine ⟨fun h => tproxy_loop h, fun {errs closed ch r} h ic hr => ?_⟩
  subst hr
  cases ch with
  | err => cases h
  | closed => cases (Option.ite_none_right_eq_some.mp h).2
  | ctx => cases h

/-- What a step of the interceptor does. -/
inductive Moves (P : Impl) (w : World) : Act → World → Prop
  | listen (hctor : w.ctor = .binding) :
      Moves P w (.listen true) { w.setLoop w.bound .accepting with
        bound := w.bound + 1
        ctor := if w.bound + 1 = P.listeners then .ready else .binding }
  | listenFails (hctor : w.ctor = .binding) :
      Moves P w (.listen false) { w with ctor := .closing 0 }
  | unbind (j : ℕ) (hctor : w.ctor = .closing j) (hj : j < w.bound) :
      Moves P w .unbind { w.setShut j with ctor := .closing (j + 1) }
  | unbound (j : ℕ) (hctor : w.ctor = .closing j) (hj : w.bound ≤ j) :
      Moves P w .unbind { w with ctor := .failed }
  | loop (i : ℕ) (c : Choice) (l : Loop) (e : Effect) (hopen : c.isAccept = true → w.shut i = false)
      (hl : P.acceptLoop i w.connCount w.closed (w.loops i) c = some (l, e)) :
      Moves P w (.loop i c) ((w.setLoop i l).effect i e)
  | handover (i j : ℕ) (ic : InterceptedConn) (hloop : w.loops i = .handing ic)
      (hcall : w.calls j = .selecting) :
      Moves P w (.handover i j) (((w.setLoop i .accepting).setCall j
        (.returned (.conn ic))).setHolder ic.conn (some (.call j)))
  | startAccept (hready : w.ctor = .ready) :
      Moves P w .startAccept
        { w.setCall w.callCount .selecting with callCount := w.callCount + 1 }
  | accept (j : ℕ) (c : Case) (r : Result) (hcall : w.calls j = .selecting)
      (hr : P.accept w.errs w.closed c = some r) :
      Moves P w (.accept j c) { w.setCall j (.returned r) with errs := w.errsAfter c }
  | close (hready : w.ctor = .ready) (hidle : w.closer = .idle) :
      Moves P w .close { w with closed := true, closer := .closing 0 }
  | closeNext (j : ℕ) (hcloser : w.closer = .closing j) (hj : j < w.bound) :
      Moves P w .closeNext { w.setShut j with closer := .closing (j + 1) }
  | closeDone (j : ℕ) (hcloser : w.closer = .closing j) (hj : w.bound ≤ j) :
      Moves P w .closeNext { w with closer := .done }

theorem step_moves {P : Impl} {w w' : World} {a : Act} (h : step P w a = some w') :
    Moves P w a w' := by
  cases a with
  | listen ok =>
    obtain ⟨hctor, h⟩ := Option.ite_none_right_eq_some.mp h
    cases ok with
    | true =>
      obtain rfl := Option.some.inj h
      exact .listen hctor
    | false =>
      obtain rfl := Option.some.inj h
      exact .listenFails hctor
  | unbind =>
    unfold step at h
    dsimp only at h
    split at h
    · rename_i j hctor
      split at h
      · rename_i hj
        obtain rfl := Option.some.inj h
        exact .unbind j hctor hj
      · rename_i hj
        obtain rfl := Option.some.inj h
        exact .unbound j hctor (Nat.le_of_not_lt hj)
    · cases h
  | loop i c =>
    obtain ⟨hopen, h⟩ := Option.ite_none_left_eq_some.mp h
    obtain ⟨⟨l, e⟩, hl, rfl⟩ := Option.map_eq_some_iff.mp h
    refine .loop i c l e (fun hc => ?_) hl
    exact Bool.eq_false_iff.mpr fun hshut => hopen ⟨hc, hshut⟩
  | handover i j =>
    unfold step at h
    dsimp only at h
    split at h
    · rename_i ic hloop hcall
      obtain rfl := Option.some.inj h
      exact .handover i j ic hloop hcall
    · cases h
  | startAccept =>
    obtain ⟨hready, h⟩ := Option.ite_none_right_eq_some.mp h
    obtain rfl := Option.some.inj h
    exact .startAccept hready
  | accept j c =>
    unfold step at h
    dsimp only at h
    split at h
    · rename_i hcall
      obtain ⟨r, hr, rfl⟩ := Option.map_eq_some_iff.mp h
      exact .accept j c r hcall hr
    · cases h
  | close =>
    obtain ⟨⟨hready, hidle⟩, h⟩ := Option.ite_none_right_eq_some.mp h
    obtain rfl := Option.some.inj h
    exact .close hready hidle
  | closeNext =>
    unfold step at h
    dsimp only at h
    split at h
    · rename_i j hcloser
      split at h
      · rename_i hj
        obtain rfl := Option.some.inj h
        exact .closeNext j hcloser hj
      · rename_i hj
        obtain rfl := Option.some.inj h
        exact .closeDone j hcloser (Nat.le_of_not_lt hj)
    · cases h

/-! ## Who has the connections -/

def Loop.conn : Loop → Option ℕ
  | .handing ic => some ic.conn
  | _ => none

def Call.conn : Call → Option ℕ
  | .returned (.conn ic) => some ic.conn
  | _ => none

def World.holds (w : World) : Holder → Option ℕ
  | .loop i => (w.loops i).conn
  | .call j => (w.calls j).conn

/-- The connections are in custody, each with the loop of its listener until it is handed over. -/
structure Kept (w : World) : Prop where
  custody : Custody w.holds w.connCount fun c => (w.conns c).holder
  own : ∀ i c, (w.loops i).conn = some c → (w.conns c).listener = i
  absent_iff : ∀ i, w.loops i = .absent ↔ w.bound ≤ i
  calls_absent : ∀ j, w.callCount ≤ j → w.calls j = .absent

section Kept

variable {P : Impl} {w w' : World} {a : Act} {i j c : ℕ} {l : Loop} {r : Call}

theorem holds_setLoop (l : Loop) :
    (w.setLoop i l).holds = Function.update w.holds (.loop i) l.conn := by
  funext h
  cases h with
  | loop k =>
    rcases eq_or_ne k i with rfl | hk
    · simp [World.holds, World.setLoop]
    · simp [World.holds, World.setLoop, hk]
  | call k => simp [World.holds, World.setLoop]

theorem holds_setCall (r : Call) :
    (w.setCall j r).holds = Function.update w.holds (.call j) r.conn := by
  funext h
  cases h with
  | loop k => simp [World.holds, World.setCall]
  | call k =>
    rcases eq_or_ne k j with rfl | hk
    · simp [World.holds, World.setCall]
    · simp [World.holds, World.setCall, hk]

theorem holder_setHolder (h : Option Holder) :
    (fun d => ((w.setHolder c h).conns d).holder) =
      Function.update (fun d => (w.conns d).holder) c h := by
  funext d
  rcases eq_or_ne d c with rfl | hd
  · simp [World.setHolder]
  · simp [World.setHolder, hd]

theorem holder_newConn (h : Option Holder) :
    (fun d => ((w.newConn i h).conns d).holder) =
      Function.update (fun d => (w.conns d).holder) w.connCount h := by
  funext d
  rcases eq_or_ne d w.connCount with rfl | hd
  · simp [World.newConn]
  · simp [World.newConn, hd]

theorem listener_setHolder (h : Option Holder) (d : ℕ) :
    ((w.setHolder c h).conns d).listener = (w.conns d).listener := by
  rcases eq_or_ne d c with rfl | hd
  · simp [World.setHolder]
  · simp [World.setHolder, hd]

theorem listener_newConn {h : Option Holder} {d : ℕ} (hd : d < w.connCount) :
    ((w.newConn i h).conns d).listener = (w.conns d).listener := by
  simp [World.newConn, Nat.ne_of_lt hd]

theorem Kept.lt (h : Kept w) {x : Holder} (hx : w.holds x = some c) : c < w.connCount :=
  ((h.custody.holds_iff x c).mp hx).1

theorem Kept.lt_bound (h : Kept w) (hpresent : w.loops i ≠ .absent) : i < w.bound := by
  rw [← not_le, ← h.absent_iff]
  exact hpresent

theorem Kept.handing_lt (h : Kept w) {ic : InterceptedConn} (hloop : w.loops i = .handing ic) :
    i < w.bound :=
  h.lt_bound (by rw [hloop]; nofun)

/-- A loop goes on to a state in which it has what it had. -/
theorem Kept.setLoop (h : Kept w) (hpresent : w.loops i ≠ .absent) (hl : l ≠ .absent)
    (hsame : l.conn = (w.loops i).conn) : Kept (w.setLoop i l) := by
  refine ⟨?_, fun k d hd => ?_, fun k => ?_, h.calls_absent⟩
  · rw [holds_setLoop, hsame]
    have hself : Function.update w.holds (.loop i) (w.loops i).conn = w.holds :=
      Function.update_eq_self (.loop i) w.holds
    rw [hself]
    exact h.custody
  · rcases eq_or_ne k i with rfl | hk
    · have hd' : l.conn = some d := by simpa [World.setLoop] using hd
      exact h.own k d (hsame ▸ hd')
    · exact h.own k d (by simpa [World.setLoop, hk] using hd)
  · rcases eq_or_ne k i with rfl | hk
    · have hlt : ¬ w.bound ≤ k := by rwa [← h.absent_iff]
      simpa [World.setLoop, hl] using hlt
    · simpa [World.setLoop, hk] using h.absent_iff k

theorem Kept.setCall (h : Kept w) (hpresent : w.calls j ≠ .absent)
    (hsame : r.conn = (w.calls j).conn) : Kept (w.setCall j r) := by
  refine ⟨?_, h.own, h.absent_iff, fun k hk => ?_⟩
  · rw [holds_setCall, hsame]
    have hself : Function.update w.holds (.call j) (w.calls j).conn = w.holds :=
      Function.update_eq_self (.call j) w.holds
    rw [hself]
    exact h.custody
  · have hkj : k ≠ j := by
      rintro rfl
      exact hpresent (h.calls_absent k hk)
    simpa [World.setCall, hkj] using h.calls_absent k hk

/-- A new loop. -/
theorem Kept.listen (h : Kept w) (ctor : Ctor) :
    Kept { w.setLoop w.bound .accepting with bound := w.bound + 1, ctor := ctor } := by
  have habsent : w.loops w.bound = .absent := (h.absent_iff _).mpr (Nat.le_refl _)
  refine ⟨?_, fun k d hd => ?_, fun k => ?_, h.calls_absent⟩
  · have hsame : (w.setLoop w.bound .accepting).holds = w.holds := by
      rw [holds_setLoop]
      refine Function.update_eq_self_iff.mpr ?_
      rw [World.holds, habsent]
      rfl
    exact hsame ▸ h.custody
  · rcases eq_or_ne k w.bound with rfl | hk
    · simp [World.setLoop, Loop.conn] at hd
    · exact h.own k d (by simpa [World.setLoop, hk] using hd)
  · rcases eq_or_ne k w.bound with rfl | hk
    · simp [World.setLoop]
    · have hle : w.bound ≤ k ↔ w.bound + 1 ≤ k := by omega
      simpa [World.setLoop, hk, ← hle] using h.absent_iff k

theorem Kept.startAccept (h : Kept w) :
    Kept { w.setCall w.callCount .selecting with callCount := w.callCount + 1 } := by
  have habsent : w.calls w.callCount = .absent := h.calls_absent _ (Nat.le_refl _)
  refine ⟨?_, h.own, h.absent_iff, fun k hk => ?_⟩
  · have hsame : (w.setCall w.callCount .selecting).holds = w.holds := by
      rw [holds_setCall]
      refine Function.update_eq_self_iff.mpr ?_
      rw [World.holds, habsent]
      rfl
    exact hsame ▸ h.custody
  · have hlt : w.callCount < k := hk
    simpa [World.setCall, Nat.ne_of_gt hlt] using h.calls_absent k (Nat.le_of_lt hlt)

theorem Kept.keep (h : Kept w) (hloop : w.loops i = .accepting) {ic : InterceptedConn}
    (hic : ic.conn = w.connCount) :
    Kept ((w.setLoop i (.handing ic)).newConn i (some (.loop i))) := by
  have hi : i < w.bound := h.lt_bound (by rw [hloop]; nofun)
  have hfree : w.holds (.loop i) = none := by
    rw [World.holds, hloop]
    rfl
  refine ⟨?_, fun k d hd => ?_, fun k => ?_, h.calls_absent⟩
  · have hmint := h.custody.mint hfree
    have hholds : (w.setLoop i (.handing ic)).holds =
        Function.update w.holds (.loop i) (some w.connCount) := by
      rw [holds_setLoop, Loop.conn, hic]
    rw [← hholds] at hmint
    exact holder_newConn (w := w.setLoop i (.handing ic)) (some (.loop i)) ▸ hmint
  · rcases eq_or_ne k i with rfl | hk
    · have hd' : some ic.conn = some d := by
        simpa [World.newConn, World.setLoop, Loop.conn] using hd
      obtain rfl := Option.some.inj hd'
      simp [World.newConn, World.setLoop, hic]
    · have hd' : (w.loops k).conn = some d := by
        simpa [World.newConn, World.setLoop, hk] using hd
      have hlt := h.lt (x := .loop k) hd'
      have hsame := listener_newConn (w := w.setLoop i (.handing ic)) (i := i)
        (h := some (.loop i)) hlt
      rw [hsame]
      exact h.own k d hd'
  · rcases eq_or_ne k i with rfl | hk
    · simpa [World.newConn, World.setLoop] using hi
    · simpa [World.newConn, World.setLoop, hk] using h.absent_iff k

theorem Kept.reject (h : Kept w) : Kept (w.newConn i none) := by
  refine ⟨?_, fun k d hd => ?_, h.absent_iff, h.calls_absent⟩
  · exact holder_newConn (w := w) none ▸ h.custody.mint_disposed
  · rw [listener_newConn (h.lt (x := .loop k) hd)]
    exact h.own k d hd

theorem holds_handing {ic : InterceptedConn} (hloop : w.loops i = .handing ic) :
    w.holds (.loop i) = some ic.conn := by
  rw [World.holds, hloop]
  rfl

theorem Kept.drop (h : Kept w) {ic : InterceptedConn} (hloop : w.loops i = .handing ic)
    (reason : Reason) : Kept ((w.setLoop i (.ended reason)).setHolder ic.conn none) := by
  have hi : i < w.bound := h.handing_lt hloop
  refine ⟨?_, fun k d hd => ?_, fun k => ?_, h.calls_absent⟩
  · have hdispose := h.custody.dispose (holds_handing hloop)
    have hholds : (w.setLoop i (.ended reason)).holds = Function.update w.holds (.loop i) none :=
      holds_setLoop _
    rw [← hholds] at hdispose
    exact holder_setHolder (w := w.setLoop i (.ended reason)) none ▸ hdispose
  · rcases eq_or_ne k i with rfl | hk
    · simp [World.setHolder, World.setLoop, Loop.conn] at hd
    · have hd' : (w.loops k).conn = some d := by
        simpa [World.setHolder, World.setLoop, hk] using hd
      rw [listener_setHolder]
      exact h.own k d hd'
  · rcases eq_or_ne k i with rfl | hk
    · simpa [World.setHolder, World.setLoop] using hi
    · simpa [World.setHolder, World.setLoop, hk] using h.absent_iff k

theorem Kept.handover (h : Kept w) {ic : InterceptedConn} (hloop : w.loops i = .handing ic)
    (hcall : w.calls j = .selecting) :
    Kept (((w.setLoop i .accepting).setCall j (.returned (.conn ic))).setHolder ic.conn
      (some (.call j))) := by
  have hi : i < w.bound := h.handing_lt hloop
  refine ⟨?_, fun k d hd => ?_, fun k => ?_, fun k hk => ?_⟩
  · have hfree : w.holds (.call j) = none := by
      rw [World.holds, hcall]
      rfl
    have hmove := h.custody.move (holds_handing hloop) hfree
    have hholds : ((w.setLoop i .accepting).setCall j (.returned (.conn ic))).holds =
        Function.update (Function.update w.holds (.loop i) none) (.call j) (some ic.conn) := by
      rw [holds_setCall, holds_setLoop]
      rfl
    rw [← hholds] at hmove
    exact holder_setHolder (w := (w.setLoop i .accepting).setCall j (.returned (.conn ic)))
      (some (.call j)) ▸ hmove
  · rcases eq_or_ne k i with rfl | hk
    · simp [World.setHolder, World.setCall, World.setLoop, Loop.conn] at hd
    · have hd' : (w.loops k).conn = some d := by
        simpa [World.setHolder, World.setCall, World.setLoop, hk] using hd
      rw [listener_setHolder]
      exact h.own k d hd'
  · rcases eq_or_ne k i with rfl | hk
    · simpa [World.setHolder, World.setCall, World.setLoop] using hi
    · simpa [World.setHolder, World.setCall, World.setLoop, hk] using h.absent_iff k
  · have hkj : k ≠ j := by
      rintro rfl
      have habsent := h.calls_absent k hk
      rw [hcall] at habsent
      cases habsent
    simpa [World.setHolder, World.setCall, World.setLoop, hkj] using h.calls_absent k hk

theorem Kept.loop (h : Kept w) {ch : Choice} {e : Effect}
    (hm : LoopMoves w.connCount w.closed (w.loops i) ch l e) :
    Kept ((w.setLoop i l).effect i e) := by
  generalize hloop : w.loops i = l₀ at hm
  have hpresent : l₀ ≠ .absent → w.loops i ≠ .absent := fun hl => hloop ▸ hl
  cases hm with
  | keep kind ic hic => exact h.keep hloop hic
  | reject =>
    have hset := h.setLoop (l := .accepting) (hpresent nofun) nofun (by rw [hloop])
    exact hset.reject
  | fail => exact h.setLoop (hpresent nofun) nofun (by rw [hloop]; rfl)
  | stop => exact h.setLoop (hpresent nofun) nofun (by rw [hloop]; rfl)
  | error e _ he =>
    have hset := h.setLoop (l := .ended .error) (hpresent nofun) nofun (by rw [hloop]; rfl)
    rcases he with rfl | rfl
    · exact hset
    · exact ⟨hset.custody, hset.own, hset.absent_iff, hset.calls_absent⟩
  | drop ic => exact h.drop hloop .closed

theorem Kept.step (hP : P.Regular) (h : Kept w) (hm : Moves P w a w') : Kept w' := by
  cases hm with
  | listen => exact h.listen _
  | loop i ch l e _ hl => exact h.loop (hP.loop hl)
  | handover i j ic hloop hcall => exact h.handover hloop hcall
  | startAccept => exact h.startAccept
  | accept j ch r hcall hr =>
    have hsame : (Call.returned r).conn = (w.calls j).conn := by
      rw [hcall]
      cases r with
      | conn ic => exact absurd rfl (hP.accept hr ic)
      | err | closed | ctx => rfl
    have hset := h.setCall (by rw [hcall]; nofun) hsame
    exact ⟨hset.custody, hset.own, hset.absent_iff, hset.calls_absent⟩
  | listenFails | unbind | unbound | close | closeNext | closeDone =>
    exact ⟨h.custody, h.own, h.absent_iff, h.calls_absent⟩

theorem kept_reach (hP : P.Regular) (h : (machine P).Reach w) : Kept w := by
  refine Machine.Reach.invariant (M := machine P) (I := Kept) ?_
    (fun w a w' hi hst => hi.step hP (step_moves hst)) h
  have hnone : (machine P).init.holds = fun _ => none := by
    funext x
    cases x <;> rfl
  refine ⟨hnone ▸ Custody.init, nofun, fun i => ?_, fun _ _ => rfl⟩
  exact iff_of_true rfl (Nat.zero_le i)

end Kept

/-! ## The constructor and `Close` -/

/-- How far the constructor and `Close` are, and what they have closed. -/
structure Gates (P : Impl) (w : World) : Prop where
  bound_le : w.bound ≤ P.listeners
  binding_lt : w.ctor = .binding → w.bound < P.listeners
  ready_pos : w.ctor = .ready → w.bound = P.listeners ∧ 0 < w.bound
  calls_ready : ∀ j, w.calls j ≠ .absent → w.ctor = .ready
  closer_ready : w.closer ≠ .idle → w.ctor = .ready
  closed_iff : w.closed = true ↔ w.closer ≠ .idle
  unbinding : ∀ j, w.ctor = .closing j → ∀ i < j, w.shut i = true
  unbound : w.ctor = .failed → ∀ i < w.bound, w.shut i = true
  closing : ∀ j, w.closer = .closing j → ∀ i < j, w.shut i = true
  closed_all : w.closer = .done → ∀ i < w.bound, w.shut i = true

section Gates

variable {P : Impl} {w w' : World} {a : Act}

/-- A step that leaves the constructor, `Close` and the listeners alone, and starts no call. -/
theorem Gates.of_same (h : Gates P w) (hctor : w'.ctor = w.ctor) (hbound : w'.bound = w.bound)
    (hshut : w'.shut = w.shut) (hclosed : w'.closed = w.closed) (hcloser : w'.closer = w.closer)
    (hcalls : ∀ j, w'.calls j ≠ .absent → w.calls j ≠ .absent) : Gates P w' := by
  obtain ⟨h₁, h₂, h₃, h₄, h₅, h₆, h₇, h₈, h₉, h₁₀⟩ := h
  rw [← hctor, ← hbound] at h₂ h₃
  rw [← hctor, ← hcloser] at h₅
  rw [← hclosed, ← hcloser] at h₆
  rw [← hctor, ← hshut] at h₇
  rw [← hctor, ← hbound, ← hshut] at h₈
  rw [← hcloser, ← hshut] at h₉
  rw [← hcloser, ← hbound, ← hshut] at h₁₀
  exact ⟨hbound ▸ h₁, h₂, h₃, fun j hj => hctor ▸ h₄ j (hcalls j hj), h₅, h₆, h₇, h₈, h₉, h₁₀⟩

theorem shut_setShut {j : ℕ} (h : ∀ i < j, w.shut i = true) :
    ∀ i < j + 1, (w.setShut j).shut i = true := by
  intro i hi
  rcases eq_or_ne i j with rfl | hij
  · simp [World.setShut]
  · have hlt : i < j := by omega
    simpa [World.setShut, hij] using h i hlt

theorem shut_mono {i j : ℕ} (h : w.shut i = true) : (w.setShut j).shut i = true := by
  rcases eq_or_ne i j with rfl | hij
  · simp [World.setShut]
  · simpa [World.setShut, hij] using h

theorem Gates.idle (h : Gates P w) (hctor : w.ctor ≠ .ready) : w.closer = .idle :=
  not_not.mp fun hcloser => hctor (h.closer_ready hcloser)

theorem Gates.no_calls (h : Gates P w) (hctor : w.ctor ≠ .ready) (j : ℕ) : w.calls j = .absent :=
  not_not.mp fun hcall => hctor (h.calls_ready j hcall)

theorem Gates.selecting_ready (h : Gates P w) {j : ℕ} (hcall : w.calls j = .selecting) :
    w.ctor = .ready :=
  h.calls_ready j (by rw [hcall]; nofun)

theorem Gates.closing_ready (h : Gates P w) {j : ℕ} (hcloser : w.closer = .closing j) :
    w.ctor = .ready ∧ w.closed = true := by
  have hne : w.closer ≠ .idle := by rw [hcloser]; nofun
  exact ⟨h.closer_ready hne, h.closed_iff.mpr hne⟩

/-- A call that returns had been made. -/
theorem present_of_setCall {j k : ℕ} {c : Call} (hcall : w.calls j = .selecting)
    (hk : (w.setCall j c).calls k ≠ .absent) : w.calls k ≠ .absent := by
  rcases eq_or_ne k j with rfl | hkj
  · rw [hcall]
    nofun
  · simpa [World.setCall, hkj] using hk

/-- A step of the constructor. -/
theorem Gates.build (h : Gates P w) (hctor : w.ctor ≠ .ready) (hcloser : w'.closer = w.closer)
    (hcalls : w'.calls = w.calls) (hclosed : w'.closed = w.closed) (hle : w'.bound ≤ P.listeners)
    (hbinding : w'.ctor = .binding → w'.bound < P.listeners)
    (hready : w'.ctor = .ready → w'.bound = P.listeners ∧ 0 < w'.bound)
    (hclosing : ∀ j, w'.ctor = .closing j → ∀ i < j, w'.shut i = true)
    (hfailed : w'.ctor = .failed → ∀ i < w'.bound, w'.shut i = true) : Gates P w' := by
  have hidle := h.idle hctor
  refine ⟨hle, hbinding, hready, fun j hj => ?_, fun hj => ?_, ?_, hclosing, hfailed,
    fun j hj => ?_, fun hj => ?_⟩
  · rw [hcalls] at hj
    exact absurd (h.no_calls hctor j) hj
  · rw [hcloser] at hj
    exact absurd hidle hj
  · rw [hclosed, hcloser]
    exact h.closed_iff
  · rw [hcloser, hidle] at hj
    cases hj
  · rw [hcloser, hidle] at hj
    cases hj

theorem effect_same (w : World) (i : ℕ) (e : Effect) :
    (w.effect i e).ctor = w.ctor ∧ (w.effect i e).bound = w.bound ∧
      (w.effect i e).shut = w.shut ∧ (w.effect i e).closed = w.closed ∧
      (w.effect i e).closer = w.closer ∧ (w.effect i e).calls = w.calls ∧
      (w.effect i e).loops = w.loops := by
  cases e <;> exact ⟨rfl, rfl, rfl, rfl, rfl, rfl, rfl⟩

theorem Gates.step (h : Gates P w) (hm : Moves P w a w') : Gates P w' := by
  cases hm with
  | listen hctor =>
    have hlt := h.binding_lt hctor
    refine h.build (by rw [hctor]; nofun) rfl rfl rfl hlt (fun hb => ?_) (fun hr => ?_)
      (fun j hj => ?_) (fun hf => ?_)
    · have hne : w.bound + 1 ≠ P.listeners := fun heq => by simp [heq] at hb
      change w.bound + 1 < P.listeners
      omega
    · refine ⟨?_, Nat.succ_pos _⟩
      by_contra hne
      exact absurd hr (by simp [show w.bound + 1 ≠ P.listeners from hne])
    · dsimp only at hj
      split at hj <;> cases hj
    · dsimp only at hf
      split at hf <;> cases hf
  | listenFails hctor =>
    refine h.build (by rw [hctor]; nofun) rfl rfl rfl h.bound_le nofun nofun (fun j hj i hi => ?_)
      nofun
    cases hj
    exact absurd hi (Nat.not_lt_zero i)
  | unbind j hctor hj =>
    refine h.build (by rw [hctor]; nofun) rfl rfl rfl h.bound_le nofun nofun (fun k hk => ?_) nofun
    cases hk
    exact shut_setShut (h.unbinding j hctor)
  | unbound j hctor hj =>
    refine h.build (by rw [hctor]; nofun) rfl rfl rfl h.bound_le nofun nofun nofun
      (fun _ i hi => ?_)
    exact h.unbinding j hctor i (Nat.lt_of_lt_of_le hi hj)
  | loop i ch l e _ _ =>
    obtain ⟨hctor, hbound, hshut, hclosed, hcloser, hcalls, -⟩ := effect_same (w.setLoop i l) i e
    exact h.of_same hctor hbound hshut hclosed hcloser fun j hj => by rwa [hcalls] at hj
  | handover i j ic hloop hcall =>
    exact h.of_same rfl rfl rfl rfl rfl fun k hk =>
      present_of_setCall (w := w.setLoop i .accepting) hcall hk
  | startAccept hready =>
    exact ⟨h.bound_le, h.binding_lt, h.ready_pos, fun _ _ => hready, h.closer_ready, h.closed_iff,
      h.unbinding, h.unbound, h.closing, h.closed_all⟩
  | accept j ch r hcall _ =>
    exact h.of_same rfl rfl rfl rfl rfl fun k hk => present_of_setCall hcall hk
  | close hready hidle =>
    refine ⟨h.bound_le, h.binding_lt, h.ready_pos, h.calls_ready, fun _ => hready,
      iff_of_true rfl nofun, h.unbinding, h.unbound, fun j hj i hi => ?_, nofun⟩
    cases hj
    exact absurd hi (Nat.not_lt_zero i)
  | closeNext j hcloser hj =>
    obtain ⟨hready, hclosed⟩ := h.closing_ready hcloser
    refine ⟨h.bound_le, h.binding_lt, h.ready_pos, h.calls_ready, fun _ => hready,
      iff_of_true hclosed nofun, fun k hk i hi => shut_mono (h.unbinding k hk i hi),
      fun hf i hi => shut_mono (h.unbound hf i hi), fun k hk => ?_, nofun⟩
    cases hk
    exact shut_setShut (h.closing j hcloser)
  | closeDone j hcloser hj =>
    obtain ⟨hready, hclosed⟩ := h.closing_ready hcloser
    refine ⟨h.bound_le, h.binding_lt, h.ready_pos, h.calls_ready, fun _ => hready,
      iff_of_true hclosed nofun, h.unbinding, h.unbound, nofun, fun _ i hi => ?_⟩
    exact h.closing j hcloser i (Nat.lt_of_lt_of_le hi hj)

theorem gates_reach (h : (machine P).Reach w) : Gates P w := by
  refine Machine.Reach.invariant (M := machine P) (I := Gates P) ?_
    (fun w a w' hi hst => hi.step (step_moves hst)) h
  refine ⟨Nat.zero_le _, fun hb => ?_, fun hr => ?_, fun j hj => absurd rfl hj,
    fun hj => absurd rfl hj, iff_of_false nofun (fun hj => hj rfl), fun j hj => ?_,
    fun _ i hi => absurd hi (Nat.not_lt_zero i), nofun, nofun⟩
  · refine Nat.pos_of_ne_zero fun hzero => ?_
    simp [machine, hzero] at hb
  · dsimp only [machine] at hr
    split at hr <;> cases hr
  · dsimp only [machine] at hj
    split at hj <;> cases hj

end Gates

end OutRelayAgent.Accept
