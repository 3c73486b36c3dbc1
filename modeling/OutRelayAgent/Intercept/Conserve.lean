import OutRelayAgent.Intercept.Accept
import Mathlib.Algebra.Order.BigOperators.Group.Finset

/-!
# Connections of `explicit` are conserved

A comment on `NewExplicit` says that "any listener already opened is closed before returning so the
caller doesn't have to clean up partial state" (`explicit.go:35-37`). The listeners are closed then,
but not the channel `closed`, and nobody ever calls `Accept`: a loop that has accepted a connection
by then waits for ever.

* `connections_conserved`: in all runs each accepted connection is held by the loop of its listener,
  or was returned by one `Accept` with the service of that listener, or was closed. After an error
  of `NewExplicit` or a `Close` the loops come to rest; in every run in which no connection is
  accepted before a `net.Listen` fails they have ended then, with nothing left open. A connection
  that is accepted before stays with its loop for ever.
* `listen_fails_leaks`: such a connection.
-/

namespace OutRelayAgent.Accept

open Lib

/-! ## The services of `explicit` -/

/-- What is handed over is what the mapping of the listener says. -/
structure Mapped (mappings : List ExplicitMapping) (w : World) : Prop where
  loops : ∀ i ic, w.loops i = .handing ic → ic.origDest = .listener i ∧
    ic.targetSvc = (mappings.map (·.targetSvc)).getD i []
  calls : ∀ j ic, w.calls j = .returned (.conn ic) →
    (w.conns ic.conn).listener < mappings.length ∧
      ic.origDest = .listener (w.conns ic.conn).listener ∧
      ic.targetSvc = (mappings.map (·.targetSvc)).getD (w.conns ic.conn).listener []

section Mapped

variable {mappings : List ExplicitMapping} {w w' : World} {a : Act}

theorem Mapped.step (hgates : Gates (explicit mappings) w) (hkept : Kept w) (h : Mapped mappings w)
    (hm : Moves (explicit mappings) w a w') : Mapped mappings w' := by
  cases hm with
  | listen =>
    refine ⟨fun k ic hk => ?_, h.calls⟩
    rcases eq_or_ne k w.bound with rfl | hkb
    · simp [World.setLoop] at hk
    · exact h.loops k ic (by simpa [World.setLoop, hkb] using hk)
  | loop i ch l e _ hl =>
    obtain ⟨hm, hkeep, -⟩ := explicit_loop hl
    obtain ⟨-, -, -, -, -, hcalls, hloops⟩ := effect_same (w.setLoop i l) i e
    refine ⟨fun k ic hk => ?_, fun j ic hj => ?_⟩
    · rw [hloops] at hk
      rcases eq_or_ne k i with rfl | hki
      · have hl' : l = .handing ic := by simpa [World.setLoop] using hk
        subst hl'
        generalize w.loops k = l₀ at hm
        cases hm
        obtain rfl := Loop.handing.inj (hkeep rfl)
        exact ⟨rfl, rfl⟩
      · exact h.loops k ic (by simpa [World.setLoop, hki] using hk)
    · rw [hcalls] at hj
      have hlt : ic.conn < w.connCount := hkept.lt (x := .call j) (by
        rw [World.holds, show w.calls j = _ from hj]
        rfl)
      have hsame : (((w.setLoop i l).effect i e).conns ic.conn).listener =
          (w.conns ic.conn).listener := by
        cases e with
        | nothing | surface => rfl
        | keep | reject => exact listener_newConn (w := w.setLoop i l) hlt
        | drop c => exact listener_setHolder (w := w.setLoop i l) none _
      rw [hsame]
      exact h.calls j ic hj
  | handover i j ic hloop hcall =>
    refine ⟨fun k ic' hk => ?_, fun k ic' hk => ?_⟩
    · rcases eq_or_ne k i with rfl | hki
      · simp [World.setHolder, World.setCall, World.setLoop] at hk
      · exact h.loops k ic' (by simpa [World.setHolder, World.setCall, World.setLoop, hki] using hk)
    · rw [listener_setHolder]
      rcases eq_or_ne k j with rfl | hkj
      · have hic : ic = ic' := by
          simpa [World.setHolder, World.setCall, World.setLoop] using hk
        subst hic
        have hown : (w.conns ic.conn).listener = i := hkept.own i ic.conn (by rw [hloop]; rfl)
        have hi : i < w.bound := hkept.handing_lt hloop
        change (w.conns ic.conn).listener < _ ∧ _ = OrigDest.listener (w.conns ic.conn).listener ∧
          _ = List.getD _ (w.conns ic.conn).listener _
        rw [hown]
        exact ⟨Nat.lt_of_lt_of_le hi hgates.bound_le, h.loops i ic hloop⟩
      · exact h.calls k ic' (by
          simpa [World.setHolder, World.setCall, World.setLoop, hkj] using hk)
  | startAccept =>
    refine ⟨h.loops, fun k ic hk => ?_⟩
    rcases eq_or_ne k w.callCount with rfl | hkc
    · simp [World.setCall] at hk
    · exact h.calls k ic (by simpa [World.setCall, hkc] using hk)
  | accept j ch r hcall hr =>
    refine ⟨h.loops, fun k ic hk => ?_⟩
    rcases eq_or_ne k j with rfl | hkj
    · have hr' : r = .conn ic := by simpa [World.setCall] using hk
      exact absurd hr' ((explicit_regular mappings).accept hr ic)
    · exact h.calls k ic (by simpa [World.setCall, hkj] using hk)
  | listenFails | unbind | unbound | close | closeNext | closeDone => exact ⟨h.loops, h.calls⟩

theorem mapped_reach (h : (machine (explicit mappings)).Reach w) : Mapped mappings w := by
  refine Machine.ReachWhile.invariant (M := machine (explicit mappings)) (I := Mapped mappings)
    ⟨nofun, nofun⟩ ?_ h
  intro w a w' hr hi _ hst
  exact hi.step (gates_reach hr) (kept_reach (explicit_regular mappings) hr) (step_moves hst)

end Mapped

/-! ## What is left when the interceptor stops -/

/-- Nobody but `h` has the connection. -/
def World.OnlyIn (w : World) (h : Holder) (c : ℕ) : Prop := ∀ h', w.holds h' = some c ↔ h' = h

/-- Each accepted connection is with the loop of its listener, or has been returned by one `Accept`
with the service of this listener, or has been closed by the interceptor. -/
def Conserved (mappings : List ExplicitMapping) (w : World) : Prop :=
  ∀ c < w.connCount,
    w.OnlyIn (.loop (w.conns c).listener) c ∨
    (∃ j ic m, w.OnlyIn (.call j) c ∧ w.calls j = .returned (.conn ic) ∧ ic.conn = c ∧
      mappings[(w.conns c).listener]? = some m ∧ ic.targetSvc = m.targetSvc) ∨
    ((w.conns c).holder = none ∧ ∀ h, w.holds h ≠ some c)

/-- The constructor has returned an error, or `Close` has returned. -/
def Stopped (w : World) : Prop := w.ctor = .failed ∨ w.closer = .done

/-- No loop can go on by itself: it waits for a connection, or for a call of `Accept`. -/
def Quiet (w : World) : Prop :=
  ∀ i, match w.loops i with
    | .accepting => w.shut i = false
    | .failing => False
    | .handing _ => w.closed = false ∧ ∀ j, w.calls j ≠ .selecting
    | .absent => True
    | .ended _ => True

/-- When the interceptor has stopped and its loops have gone on as far as they can, every loop has
ended and every accepted connection has been returned or closed. -/
def Clean (w : World) : Prop :=
  Stopped w → Quiet w → (∀ i < w.bound, ∃ reason, w.loops i = .ended reason) ∧
    ∀ c < w.connCount, (w.conns c).holder = none ∨ ∃ j, (w.conns c).holder = some (.call j)

/-- A step of a loop. -/
def Act.ofLoop : Act → Bool
  | .loop _ _ => true
  | .handover _ _ => true
  | _ => false

/-- The constructor is to return an error, or has returned it. -/
def Ctor.failing : Ctor → Bool
  | .closing _ => true
  | .failed => true
  | _ => false

/-- No loop has a connection when a `net.Listen` fails, and none accepts one afterwards. -/
def calm (w : World) : Act → Bool
  | .listen false => (List.range w.bound).all fun i => (w.loops i).conn.isNone
  | .loop _ (.accept _) => !w.ctor.failing
  | _ => true

section Stop

variable {P : Impl} {mappings : List ExplicitMapping} {w w' : World} {a : Act}

theorem conserved_of_reach (h : (machine (explicit mappings)).Reach w) : Conserved mappings w := by
  have hkept := kept_reach (explicit_regular mappings) h
  have hmapped := mapped_reach h
  intro c hc
  have honly : ∀ x, w.holds x = some c → w.OnlyIn x c := fun x hx y =>
    ⟨fun hy => hkept.custody.unique hx hy, fun hy => hy ▸ hx⟩
  cases hholder : (w.conns c).holder with
  | none =>
    refine .inr (.inr ⟨rfl, fun x hx => ?_⟩)
    rw [((hkept.custody.holds_iff x c).mp hx).2] at hholder
    cases hholder
  | some x =>
    have hx := (hkept.custody.holds_iff x c).mpr ⟨hc, hholder⟩
    cases x with
    | loop i =>
      rw [hkept.own i c hx]
      exact .inl (honly _ hx)
    | call j =>
      obtain ⟨ic, hcall, rfl⟩ : ∃ ic, w.calls j = .returned (.conn ic) ∧ ic.conn = c := by
        change (w.calls j).conn = some c at hx
        unfold Call.conn at hx
        split at hx
        · rename_i ic hcall
          exact ⟨ic, hcall, Option.some.inj hx⟩
        · cases hx
      obtain ⟨hlt, -, hsvc⟩ := hmapped.calls j ic hcall
      refine .inr (.inl ⟨j, ic, mappings[(w.conns ic.conn).listener], honly _ hx, hcall, rfl,
        List.getElem?_eq_getElem hlt, ?_⟩)
      rw [hsvc]
      simp [List.getD_eq_getElem?_getD, List.getElem?_eq_getElem hlt]

theorem Stopped.shut (hgates : Gates P w) (h : Stopped w) {i : ℕ} (hi : i < w.bound) :
    w.shut i = true := by
  rcases h with hfailed | hdone
  · exact hgates.unbound hfailed i hi
  · exact hgates.closed_all hdone i hi

/-- Clean, as long as a failing constructor leaves no loop with a connection. -/
theorem clean_of (hgates : Gates P w) (hkept : Kept w)
    (hnone : w.ctor.failing = true → ∀ i, (w.loops i).conn = none) : Clean w := by
  intro hstopped hquiet
  have hended : ∀ i < w.bound, ∃ reason, w.loops i = .ended reason := by
    intro i hi
    have hq := hquiet i
    have hshut := hstopped.shut hgates hi
    cases hloop : w.loops i with
    | absent => exact absurd ((hkept.absent_iff i).mp hloop) (Nat.not_le_of_lt hi)
    | accepting =>
      simp only [hloop, hshut] at hq
      cases hq
    | failing => simp only [hloop] at hq
    | handing ic =>
      simp only [hloop] at hq
      rcases hstopped with hfailed | hdone
      · have hconn := hnone (by rw [hfailed]; rfl) i
        rw [hloop] at hconn
        cases hconn
      · rw [hgates.closed_iff.mpr (by rw [hdone]; nofun)] at hq
        cases hq.1
    | ended reason => exact ⟨reason, rfl⟩
  refine ⟨hended, fun c hc => ?_⟩
  cases hholder : (w.conns c).holder with
  | none => exact .inl rfl
  | some x =>
    have hx := (hkept.custody.holds_iff x c).mpr ⟨hc, hholder⟩
    cases x with
    | loop i =>
      change (w.loops i).conn = some c at hx
      rcases Nat.lt_or_ge i w.bound with hi | hi
      · obtain ⟨reason, hloop⟩ := hended i hi
        rw [hloop] at hx
        cases hx
      · rw [(hkept.absent_iff i).mpr hi] at hx
        cases hx
    | call j => exact .inr ⟨j, rfl⟩

/-- In a calm run, a failing constructor leaves no loop with a connection. -/
theorem none_held_step (hP : P.Regular) (hgates : Gates P w) (hkept : Kept w)
    (h : w.ctor.failing = true → ∀ i, (w.loops i).conn = none) (hcalm : calm w a = true)
    (hm : Moves P w a w') : w'.ctor.failing = true → ∀ i, (w'.loops i).conn = none := by
  cases hm with
  | listen =>
    intro hf
    dsimp only at hf
    split at hf <;> cases hf
  | listenFails hctor =>
    intro _ i
    rcases Nat.lt_or_ge i w.bound with hi | hi
    · simpa using (List.all_eq_true.mp hcalm) i (List.mem_range.mpr hi)
    · change (w.loops i).conn = none
      rw [(hkept.absent_iff i).mpr hi]
      rfl
  | unbind j hctor | unbound j hctor => exact fun _ => h (by rw [hctor]; rfl)
  | loop i ch l e _ hl =>
    obtain ⟨hctor, -, -, -, -, -, hloops⟩ := effect_same (w.setLoop i l) i e
    rw [hctor, hloops]
    intro hf k
    rcases eq_or_ne k i with rfl | hk
    · have hm := hP.loop hl
      generalize w.loops k = l₀ at hm
      simp only [World.setLoop, Function.update_self]
      cases hm with
      | keep =>
        rw [calm, show w.ctor.failing = true from hf] at hcalm
        cases hcalm
      | reject | fail | stop | error | drop => rfl
    · simpa [World.setLoop, hk] using h hf k
  | handover i j ic hloop hcall =>
    intro (hf : w.ctor.failing = true)
    rw [hgates.selecting_ready hcall] at hf
    cases hf
  | startAccept | accept | close | closeNext | closeDone => exact h

theorem none_held (hP : P.Regular)
    (h : (machine P).ReachWhile (fun w a => calm w a = true) w) :
    w.ctor.failing = true → ∀ i, (w.loops i).conn = none := by
  refine Machine.ReachWhile.invariant (M := machine P)
    (I := fun w => w.ctor.failing = true → ∀ i, (w.loops i).conn = none) (fun _ _ => rfl) ?_ h
  intro w a w' hr hi hcalm hst
  exact none_held_step hP (gates_reach hr.reach) (kept_reach hP hr.reach) hi hcalm (step_moves hst)

/-- The constructor fails while a loop has a connection. -/
structure Stuck (i : ℕ) (ic : InterceptedConn) (w : World) : Prop where
  failing : w.ctor.failing = true
  handing : w.loops i = .handing ic

theorem Stuck.step {i : ℕ} {ic : InterceptedConn} (hP : P.Regular) (hgates : Gates P w)
    (h : Stuck i ic w) (hm : Moves P w a w') : Stuck i ic w' := by
  have hctor : w.ctor ≠ .ready ∧ w.ctor ≠ .binding := by
    constructor
    · intro heq
      have hf := h.failing
      rw [heq] at hf
      cases hf
    · intro heq
      have hf := h.failing
      rw [heq] at hf
      cases hf
  have hopen : w.closed = false := by
    refine Bool.eq_false_iff.mpr fun hclosed => ?_
    exact hgates.closed_iff.mp hclosed (hgates.idle hctor.1)
  cases hm with
  | listen hb | listenFails hb => exact absurd hb hctor.2
  | unbind | unbound => exact ⟨rfl, h.handing⟩
  | loop k ch l e _ hl =>
    obtain ⟨hsame, -, -, -, -, -, hloops⟩ := effect_same (w.setLoop k l) k e
    refine ⟨by rw [hsame]; exact h.failing, ?_⟩
    rw [hloops]
    rcases eq_or_ne i k with rfl | hk
    · have hm := hP.loop hl
      rw [h.handing, hopen] at hm
      cases hm with
      | drop _ hclosed => cases hclosed
    · simpa [World.setLoop, hk] using h.handing
  | handover k j ic' hloop hcall =>
    exact absurd (hgates.selecting_ready hcall) hctor.1
  | startAccept hready | close hready => exact absurd hready hctor.1
  | accept j ch r hcall => exact absurd (hgates.selecting_ready hcall) hctor.1
  | closeNext j hcloser | closeDone j hcloser =>
    exact absurd (hgates.closing_ready hcloser).1 hctor.1

/-- A step that is not calm leaves a loop with a connection for ever. -/
theorem stuck_of_not_calm (hst : (machine (explicit mappings)).step w a = some w')
    (hcalm : calm w a = false) : ∃ i ic, Stuck i ic w' := by
  have hm := step_moves hst
  cases hm with
  | listenFails hctor =>
    obtain ⟨i, -, hi⟩ := List.all_eq_false.mp hcalm
    cases hloop : w.loops i with
    | handing ic => exact ⟨i, ic, rfl, hloop⟩
    | absent | accepting | failing | ended =>
      rw [hloop] at hi
      exact absurd rfl hi
  | loop i ch l e _ hl =>
    obtain ⟨hm, hkeep, -⟩ := explicit_loop hl
    obtain ⟨hctor, -, -, -, -, -, hloops⟩ := effect_same (w.setLoop i l) i e
    cases ch with
    | accept kind =>
      have hf : w.ctor.failing = true := by simpa [calm] using hcalm
      have hl' : ∃ ic, l = .handing ic := by
        generalize w.loops i = l₀ at hl hm
        cases hm with
        | keep kind ic => exact ⟨ic, rfl⟩
        | reject => cases hl
      obtain ⟨ic, rfl⟩ := hl'
      refine ⟨i, ic, by rw [hctor]; exact hf, ?_⟩
      rw [hloops]
      simp [World.setLoop]
    | fail | go => cases hcalm
  | _ => cases hcalm

theorem stuck_for_ever (hr : (machine P).Reach w) (hP : P.Regular) {i : ℕ} {ic : InterceptedConn}
    (h : Stuck i ic w) (hw : (machine P).ReachFrom w w') :
    w'.loops i = .handing ic ∧ (w'.conns ic.conn).holder = some (.loop i) := by
  have hstuck : Stuck i ic w' := by
    refine Machine.ReachFrom.invariant (M := machine P) (I := Stuck i ic) hr h ?_ hw
    intro t b t' ht hi hst
    exact hi.step hP (gates_reach ht) (step_moves hst)
  have hkept := kept_reach hP (hr.trans hw)
  refine ⟨hstuck.handing, ((hkept.custody.holds_iff (.loop i) ic.conn).mp ?_).2⟩
  exact holds_handing hstuck.handing

/-! ### The loops do come to rest -/

/-- How far a loop of a stopped interceptor is from its end. -/
def Loop.rank : Loop → ℕ
  | .handing _ => 3
  | .accepting => 2
  | .failing => 1
  | .absent => 0
  | .ended _ => 0

def World.rank (w : World) : ℕ := ∑ i ∈ Finset.range w.bound, (w.loops i).rank

theorem rank_lt {i : ℕ} (hi : i < w.bound) (hbound : w'.bound = w.bound) {l : Loop}
    (hloops : w'.loops = Function.update w.loops i l) (hlt : l.rank < (w.loops i).rank) :
    w'.rank < w.rank := by
  unfold World.rank
  rw [hbound, hloops]
  refine Finset.sum_lt_sum (fun k _ => ?_) ⟨i, Finset.mem_range.mpr hi, by simpa using hlt⟩
  rcases eq_or_ne k i with rfl | hk
  · simpa using Nat.le_of_lt hlt
  · simp [hk]

/-- A loop that can go on does, and comes nearer to its end. -/
theorem exists_loop_step (hkept : Kept w) {i : ℕ}
    (hgo : ∃ ch l e, P.acceptLoop i w.connCount w.closed (w.loops i) ch = some (l, e) ∧
      ch.isAccept = false ∧ l.rank < (w.loops i).rank) :
    ∃ a w', a.ofLoop = true ∧ (machine P).step w a = some w' ∧ w'.ctor = w.ctor ∧
      w'.closer = w.closer ∧ w'.rank < w.rank := by
  obtain ⟨ch, l, e, hl, hch, hlt⟩ := hgo
  obtain ⟨hctor, hbound, -, -, hcloser, -, hloops⟩ := effect_same (w.setLoop i l) i e
  have hi : i < w.bound := by
    refine hkept.lt_bound fun habsent => ?_
    rw [habsent] at hlt
    exact absurd hlt (Nat.not_lt_zero _)
  refine ⟨.loop i ch, (w.setLoop i l).effect i e, rfl, ?_, hctor, hcloser,
    rank_lt hi hbound hloops hlt⟩
  change (if ch.isAccept ∧ w.shut i then none else _) = _
  rw [if_neg (by simp [hch]), hl]
  rfl

/-- As long as the loops of a stopped interceptor are not at rest, one of them can go on. -/
theorem exists_step_of_not_quiet (hkept : Kept w) (hquiet : ¬ Quiet w) :
    ∃ a w', a.ofLoop = true ∧ (machine (explicit mappings)).step w a = some w' ∧
      w'.ctor = w.ctor ∧ w'.closer = w.closer ∧ w'.rank < w.rank := by
  obtain ⟨i, hi⟩ := not_forall.mp hquiet
  cases hloop : w.loops i with
  | absent | ended => simp only [hloop, not_true_eq_false] at hi
  | accepting =>
    refine exists_loop_step hkept (i := i) ⟨.fail, .failing, .nothing, ?_, rfl, ?_⟩
    · rw [hloop]
      rfl
    · rw [hloop]
      decide
  | failing =>
    refine exists_loop_step hkept (i := i) ⟨.go, _, _, by rw [hloop]; rfl, rfl, ?_⟩
    rw [hloop]
    cases w.closed <;> decide
  | handing ic =>
    cases hclosed : w.closed with
    | true =>
      refine exists_loop_step hkept (i := i) ⟨.go, .ended .closed, .drop ic.conn, ?_, rfl, ?_⟩
      · rw [hloop, hclosed]
        rfl
      · rw [hloop]
        exact Nat.succ_pos 2
    | false =>
      simp only [hloop, hclosed, true_and, not_forall, not_not] at hi
      obtain ⟨j, hcall⟩ := hi
      have hib : i < w.bound := hkept.handing_lt hloop
      refine ⟨.handover i j, ((w.setLoop i .accepting).setCall j (.returned (.conn ic))).setHolder
        ic.conn (some (.call j)), rfl, ?_, rfl, rfl, rank_lt (l := .accepting) hib rfl rfl ?_⟩
      · change step (explicit mappings) w (.handover i j) = _
        unfold step
        dsimp only
        rw [hloop, hcall]
      · rw [hloop]
        exact Nat.lt_succ_self 2

theorem comes_to_rest (h : (machine (explicit mappings)).Reach w) (hstopped : Stopped w) :
    ∃ as w', (∀ a ∈ as, a.ofLoop = true) ∧ (machine (explicit mappings)).run w as = some w' ∧
      Stopped w' ∧ Quiet w' := by
  have hP := explicit_regular mappings
  obtain ⟨as, w', has, hrun, hw', hquiet⟩ := Machine.exists_run_until
    (M := machine (explicit mappings)) (A := fun a => a.ofLoop = true) (Q := Quiet)
    (I := fun w => (machine (explicit mappings)).Reach w ∧ Stopped w) World.rank
    (fun w hw hnot => by
      obtain ⟨a, w', ha, hst, hctor, hcloser, hlt⟩ :=
        exists_step_of_not_quiet (kept_reach hP hw.1) hnot
      refine ⟨a, w', ha, hst, ⟨hw.1.step hst, ?_⟩, hlt⟩
      unfold Stopped
      rw [hctor, hcloser]
      exact hw.2) ⟨h, hstopped⟩
  exact ⟨as, w', has, hrun, hw'.2, hquiet⟩

end Stop

/-- **Connections are conserved, and none is left behind by a calm run.** In every run each accepted
connection has one place, and the loops of a stopped interceptor come to rest. In a calm run they
have ended then, with nothing left open. A step that is not calm leaves a loop and its connection
for ever. -/
theorem connections_conserved (mappings : List ExplicitMapping) :
    (∀ w, (machine (explicit mappings)).Reach w → Conserved mappings w) ∧
    (∀ w, (machine (explicit mappings)).Reach w → Stopped w →
      ∃ as w', (∀ a ∈ as, a.ofLoop = true) ∧ (machine (explicit mappings)).run w as = some w' ∧
        Stopped w' ∧ Quiet w') ∧
    (∀ w, (machine (explicit mappings)).ReachWhile (fun w a => calm w a = true) w → Clean w) ∧
    ∀ w a w', (machine (explicit mappings)).Reach w →
      (machine (explicit mappings)).step w a = some w' → calm w a = false →
      ∃ i ic, ∀ w'', (machine (explicit mappings)).ReachFrom w' w'' →
        w''.loops i = .handing ic ∧ (w''.conns ic.conn).holder = some (.loop i) := by
  have hP := explicit_regular mappings
  refine ⟨fun w h => conserved_of_reach h, fun w h hstopped => comes_to_rest h hstopped,
    fun w h => ?_, fun w a w' hr hst hcalm => ?_⟩
  · exact clean_of (gates_reach h.reach) (kept_reach hP h.reach) (none_held hP h)
  · obtain ⟨i, ic, hstuck⟩ := stuck_of_not_calm hst hcalm
    exact ⟨i, ic, fun w'' hw => stuck_for_ever (hr.step hst) hP hstuck hw⟩

def twoMappings : List ExplicitMapping := [⟨[1], [10]⟩, ⟨[2], [20]⟩]

/-- Both listeners are bound. A connection to the second is returned, one to the first is waiting
when `Close` is called. -/
def closedWhileHanding : List Act :=
  [.listen true, .listen true, .startAccept, .loop 1 (.accept .other), .handover 1 0,
   .loop 0 (.accept .other), .close, .loop 0 .go, .closeNext, .closeNext, .closeNext,
   .loop 1 .fail, .loop 1 .go]

theorem closedWhileHanding_clean :
    ∃ w, (machine (explicit twoMappings)).run (machine (explicit twoMappings)).init
        closedWhileHanding = some w ∧
      w.calls 0 = .returned (.conn ⟨0, .listener 1, [20]⟩) ∧ (w.conns 1).holder = none ∧
      w.closer = .done ∧ Conserved twoMappings w ∧ Clean w := by
  obtain ⟨hconserved, -, hclean, -⟩ := connections_conserved twoMappings
  have hrun : ∃ w, (machine (explicit twoMappings)).run (machine (explicit twoMappings)).init
        closedWhileHanding = some w ∧
      w.calls 0 = .returned (.conn ⟨0, .listener 1, [20]⟩) ∧ (w.conns 1).holder = none ∧
      w.closer = .done ∧
      (machine (explicit twoMappings)).ReachWhile (fun w a => calm w a = true) w :=
    ⟨_, rfl, rfl, rfl, rfl, Machine.reachWhile_of_run (M := machine (explicit twoMappings))
      (C := calm) closedWhileHanding rfl⟩
  obtain ⟨w, hrun, hcall, hholder, hcloser, hr⟩ := hrun
  exact ⟨w, hrun, hcall, hholder, hcloser, hconserved w hr.reach, hclean w hr⟩

/-- A connection to the first listener is accepted, and the second cannot be bound. -/
def boundTooLate : List Act :=
  [.listen true, .loop 0 (.accept .other), .listen false, .unbind, .unbind]

/-- **A connection that stays open.** `NewExplicit` has returned its error, the loop is blocked and
the connection is neither returned nor closed. -/
theorem listen_fails_leaks :
    ∃ w, (machine (explicit twoMappings)).run (machine (explicit twoMappings)).init
        boundTooLate = some w ∧
      w.ctor = .failed ∧ w.shut 0 = true ∧ w.loops 0 = .handing ⟨0, .listener 0, [10]⟩ ∧
      (w.conns 0).holder = some (.loop 0) ∧ Quiet w ∧ ¬ Clean w := by
  have hquiet : ∀ w : World, w.loops 0 = .handing ⟨0, .listener 0, [10]⟩ →
      (∀ i, w.loops (i + 1) = .absent) → w.closed = false → (∀ j, w.calls j = .absent) →
      Quiet w := by
    intro w hzero hsucc hclosed hcalls i
    cases i with
    | zero =>
      simp only [hzero]
      exact ⟨hclosed, fun j => by rw [hcalls j]; nofun⟩
    | succ i => simp only [hsucc i]
  have hrun : ∃ w, (machine (explicit twoMappings)).run (machine (explicit twoMappings)).init
        boundTooLate = some w ∧
      w.ctor = .failed ∧ w.shut 0 = true ∧ w.loops 0 = .handing ⟨0, .listener 0, [10]⟩ ∧
      (w.conns 0).holder = some (.loop 0) ∧ w.bound = 1 ∧ Quiet w :=
    ⟨_, rfl, rfl, rfl, rfl, rfl, rfl, hquiet _ rfl (fun _ => rfl) rfl fun _ => rfl⟩
  obtain ⟨w, hrun, hctor, hshut, hloop, hholder, hbound, hq⟩ := hrun
  refine ⟨w, hrun, hctor, hshut, hloop, hholder, hq, fun hclean => ?_⟩
  obtain ⟨reason, hended⟩ := (hclean (.inl hctor) hq).1 0 (by omega)
  rw [hloop] at hended
  cases hended

end OutRelayAgent.Accept
