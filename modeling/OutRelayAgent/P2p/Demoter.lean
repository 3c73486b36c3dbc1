import OutRelayAgent.Lib.Machine
import Mathlib.Data.List.Range

/-!
# Watching a direct connection

Model of `Demoter.Run` (`demoter.go:61-85`) next to the connection it watches. The peer opens
streams, the connection fails, and the context ends, each at any time. `AcceptStream` returns the
next stream, or an error once the connection has failed or the context has ended.

* `demoter_reports`: `OnDegrade` is called at most once, when and only when `Run` returns the error
  of the connection, and with `peer_close` whatever the error is: `rtt_timeout`, the other reason
  the package names, is never reported. A failure that `AcceptStream` returns after the context has
  ended is not reported. The streams of the peer are closed in the order in which they were opened.
* `watching_returns`: `Run` can return as soon as the connection has failed or the context has
  ended.

Nothing in this repository runs a `Demoter`.
-/

namespace OutRelayAgent.Demote

open Lib

section Model

inductive DemoteReason
  | peerClose
  | rttTimeout

/-- What `Run` returns. -/
inductive Err (ε : Type)
  /-- `p2p: Demoter missing required hook` -/
  | misconfigured
  /-- `ctx.Err()` -/
  | ctx
  | conn (e : ε)

/-- `Conn` and `OnDegrade` are not nil. -/
structure Demoter where
  conn : Bool
  onDegrade : Bool

inductive Phase (ε : Type)
  | start
  /-- In `AcceptStream`. -/
  | watching
  | returned (e : Err ε)

structure World (ε : Type) where
  phase : Phase ε
  ctxDone : Bool
  failed : Option ε
  /-- How many streams the peer has opened. -/
  opened : ℕ
  /-- Those that have not been accepted. -/
  queue : List ℕ
  closed : List ℕ
  /-- The calls of `OnDegrade`. -/
  degraded : List (DemoteReason × ε)

inductive Act (ε : Type)
  | peerOpens
  | fails (e : ε)
  | cancel
  /-- `Run` begins. -/
  | begin
  | acceptStream
  /-- `AcceptStream` returns the connection's error. -/
  | acceptFails
  /-- `AcceptStream` returns that the context has ended. -/
  | acceptEnds

variable {ε : Type}

def step (d : Demoter) (w : World ε) : Act ε → Option (World ε)
  | .peerOpens => some { w with opened := w.opened + 1, queue := w.queue ++ [w.opened] }
  | .fails e => some { w with failed := w.failed <|> some e }
  | .cancel => some { w with ctxDone := true }
  | .begin =>
    match w.phase with
    | .start =>
      if !d.conn || !d.onDegrade then some { w with phase := .returned .misconfigured }
      else some { w with phase := .watching }
    | _ => none
  | .acceptStream =>
    match w.phase, w.queue with
    | .watching, st :: queue => some { w with queue := queue, closed := w.closed ++ [st] }
    | _, _ => none
  | .acceptFails =>
    match w.phase, w.failed with
    | .watching, some e =>
      if w.ctxDone then some { w with phase := .returned .ctx }
      else some { w with
        phase := .returned (.conn e)
        degraded := w.degraded ++ [(.peerClose, e)] }
    | _, _ => none
  | .acceptEnds =>
    match w.phase with
    | .watching => if w.ctxDone then some { w with phase := .returned .ctx } else none
    | _ => none

def run (ε : Type) (d : Demoter) : Machine (World ε) (Act ε) where
  init := ⟨.start, false, none, 0, [], [], []⟩
  step := step d

end Model

section Results

variable {ε : Type} {d : Demoter} {w w' : World ε}

/-- The calls of `OnDegrade`, by what `Run` has returned. -/
def reported : Phase ε → List (DemoteReason × ε)
  | .returned (.conn e) => [(.peerClose, e)]
  | _ => []

structure Inv (d : Demoter) (w : World ε) : Prop where
  degraded : w.degraded = reported w.phase
  streams : w.closed ++ w.queue = List.range w.opened
  ctx : w.phase = .returned .ctx → w.ctxDone = true
  hooks : w.phase = .returned .misconfigured ↔
    w.phase ≠ .start ∧ ¬ (d.conn = true ∧ d.onDegrade = true)
  failed : ∀ e, w.phase = .returned (.conn e) → w.failed = some e

theorem inv_begin (h : Inv d w) (hs : step d w .begin = some w') : Inv d w' := by
  simp only [step] at hs
  split at hs
  · rename_i hp
    have hdegraded : w.degraded = [] := by rw [h.degraded, hp]; rfl
    split at hs
    · rename_i hnil
      cases hs
      refine ⟨hdegraded, h.streams, fun hr => (by cases hr), ?_, fun e hr => (by cases hr)⟩
      refine ⟨fun _ => ⟨fun hr => (by cases hr), fun hhooks => ?_⟩, fun _ => rfl⟩
      simp [hhooks.1, hhooks.2] at hnil
    · rename_i hset
      cases hs
      refine ⟨hdegraded, h.streams, fun hr => (by cases hr), ?_, fun e hr => (by cases hr)⟩
      refine ⟨fun hr => (by cases hr), fun hno => absurd ?_ hno.2⟩
      simpa using hset
  · cases hs

/-- `Run` is watching, so both hooks are there. -/
theorem Inv.hooked (h : Inv d w) (hp : w.phase = .watching) :
    d.conn = true ∧ d.onDegrade = true := by
  by_contra hno
  have hmis := h.hooks.mpr ⟨by rw [hp]; exact fun hr => (by cases hr), hno⟩
  rw [hp] at hmis
  cases hmis

/-- `Run` returns. -/
theorem Inv.returns (h : Inv d w) (hp : w.phase = .watching) {e : Err ε}
    (hctx : e = .ctx → w.ctxDone = true) (hne : e ≠ .misconfigured)
    (hconn : ∀ e', e = .conn e' → w.failed = some e') :
    Inv d { w with phase := .returned e, degraded := reported (.returned e) } := by
  refine ⟨rfl, h.streams, fun hr => ?_, ?_, fun e' hr => ?_⟩
  · cases hr
    exact hctx rfl
  · constructor
    · intro hr
      cases hr
      exact absurd rfl hne
    · exact fun hno => absurd (h.hooked hp) hno.2
  · cases hr
    exact hconn e' rfl

theorem inv_step {a : Act ε} (h : Inv d w) (hs : step d w a = some w') : Inv d w' := by
  cases a with
  | peerOpens =>
    cases hs
    refine ⟨h.degraded, ?_, h.ctx, h.hooks, h.failed⟩
    rw [← List.append_assoc, h.streams, List.range_succ]
  | fails e =>
    cases hs
    refine ⟨h.degraded, h.streams, h.ctx, h.hooks, fun e' hr => ?_⟩
    have hfailed := h.failed e' hr
    simp [hfailed]
  | cancel =>
    cases hs
    exact ⟨h.degraded, h.streams, fun _ => rfl, h.hooks, h.failed⟩
  | begin => exact inv_begin h hs
  | acceptStream =>
    simp only [step] at hs
    split at hs
    · rename_i st queue hp hq
      cases hs
      refine ⟨h.degraded, ?_, h.ctx, h.hooks, h.failed⟩
      have hstreams := h.streams
      rw [hq] at hstreams
      rw [← hstreams, List.append_assoc]
      rfl
    · cases hs
  | acceptFails =>
    simp only [step] at hs
    split at hs
    · rename_i e hp hfailed
      have hdegraded : w.degraded = [] := by rw [h.degraded, hp]; rfl
      split at hs
      · rename_i hdone
        cases hs
        rw [hdegraded]
        exact h.returns hp (fun _ => hdone) (fun hr => by cases hr) fun e' hr => by cases hr
      · cases hs
        rw [hdegraded]
        refine h.returns hp (fun hr => by cases hr) (fun hr => by cases hr) fun e' hr => ?_
        cases hr
        exact hfailed
    · cases hs
  | acceptEnds =>
    simp only [step] at hs
    split at hs
    · rename_i hp
      have hdegraded : w.degraded = [] := by rw [h.degraded, hp]; rfl
      split at hs
      · rename_i hdone
        cases hs
        rw [hdegraded]
        exact h.returns hp (fun _ => hdone) (fun hr => by cases hr) fun e' hr => by cases hr
      · cases hs
    · cases hs

/-- What `Run` has done, at any time. -/
theorem demoter_reports (h : (run ε d).Reach w) : Inv d w := by
  refine Machine.Reach.invariant (M := run ε d) (I := Inv d) ?_ (fun _ _ _ => inv_step) h
  exact ⟨rfl, rfl, fun hr => (by cases hr), ⟨fun hr => (by cases hr), fun hr => absurd rfl hr.1⟩,
    fun e hr => (by cases hr)⟩

/-- `Run` is not held up. -/
theorem watching_returns (hp : w.phase = .watching)
    (hend : w.failed ≠ none ∨ w.ctxDone = true) :
    ∃ a w' e, (run ε d).step w a = some w' ∧ w'.phase = .returned e := by
  by_cases hdone : w.ctxDone = true
  · refine ⟨.acceptEnds, { w with phase := .returned .ctx }, .ctx, ?_, rfl⟩
    simp only [run, step, hp, if_pos hdone]
  · obtain ⟨e, he⟩ := Option.ne_none_iff_exists'.mp (hend.resolve_right hdone)
    refine ⟨.acceptFails,
      { w with phase := .returned (.conn e), degraded := w.degraded ++ [(.peerClose, e)] },
      .conn e, ?_, rfl⟩
    simp only [run, step, hp, he, if_neg hdone]

end Results

end OutRelayAgent.Demote
