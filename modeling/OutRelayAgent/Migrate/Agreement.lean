import OutRelayAgent.Migrate.Model
import Mathlib.Tactic.Common

/-!
# Do the two sides of a migration end on the same stream

The initiator commits first: `MigrateToDirect` swaps as soon as its `STREAM_RESUME` is written, and
nothing comes back to it. Each error branch of `handleDirectStream` then leaves the responder's
wrapper on the relay and closes the direct stream, on which the initiator reads a clean `io.EOF`.

* `accepting`: the condition on a step that none of these branches is taken, on the state before it;
  after a failed `MigrateToDirect` they are harmless.
* `Committed`: where the two programs stand against where the wrappers are attached, and who has
  closed which lane.
* `migration_agreement`: in every run whose steps are accepting, the two wrappers are attached to
  the same stream once both sides have finished, and the initiator reads `io.EOF` only from a
  responder whose application has finished.
* `migration_splits`: the ring has evicted the announced position.
-/

namespace OutRelayAgent.Migrate

open Lib

variable {β : Type} {L : ResumeLib (Cell β)} {s s' : Net L} {a : Act β}

/-- Both sides have finished with the attempt; without a stream there is nothing to handle. -/
def Settled (s : Net L) : Prop :=
  (s.ipc = .done ∨ s.ipc = .failed) ∧ (s.rpc = .done ∨ s.rpc = .refused ∨ s.stream = false)

/-- The step is none of `handleDirectStream`'s error branches, unless `MigrateToDirect` has
failed. -/
def accepting (s : Net L) : Act β → Bool
  | .parseErr => s.ipc = .failed
  | .lookup => (s.wraps .responder).registered
  | .retransmitFrom =>
    match s.rpc with
    | .found peerAck => (L.retransmitFrom (s.wraps .responder).state peerAck).isSome
    | _ => true
  | .writeGapErr _ => false
  | _ => true

/-- Where the two programs stand, where the wrappers are attached, who has closed what. -/
structure Committed (s : Net L) : Prop where
  initiator : (s.wraps .initiator).inner = .direct ↔ s.ipc.moved = true
  responder : (s.wraps .responder).inner = .direct ↔ s.rpc.moved = true
  reader : (s.dirs .initiator).reader.path = some .direct → s.ipc.moved = true
  stream : s.ipc = .start ∨ s.ipc = .failed ∨ s.stream = true
  framed : s.frame ≠ none → s.ipc.hasSent = true
  working : s.rpc.working = true → s.ipc.hasSent = true
  refused : s.rpc = .refused → s.ipc = .failed
  abandoned : (s.wraps .responder).abandoned = true → (s.wraps .responder).finished = true
  closer : (s.wraps .responder).closer ≠ none → (s.wraps .responder).finished = true
  relay_fin : (s.dirs .initiator).relay.fin = true → (s.wraps .responder).finished = true
  direct_fin : (s.dirs .initiator).direct.fin = true →
    (s.wraps .responder).finished = true ∨ s.ipc = .failed
  eof : (s.dirs .initiator).eof = true → (s.wraps .responder).finished = true

theorem committed_init : Committed (init L) := by
  constructor <;> simp [init, InitPc.moved, RespPc.moved, RespPc.working, ReadPc.path]

/-- A step that changes neither program. -/
theorem Committed.frame (h : Committed s) (hi : s'.ipc = s.ipc) (hr : s'.rpc = s.rpc)
    (hf : s'.frame = s.frame) (hst : s'.stream = s.stream)
    (hwi : (s'.wraps .initiator).inner = (s.wraps .initiator).inner)
    (hwr : (s'.wraps .responder).inner = (s.wraps .responder).inner)
    (hrd : (s'.dirs .initiator).reader.path = some .direct →
      (s.dirs .initiator).reader.path = some .direct ∨ (s.wraps .initiator).inner = .direct)
    (hfin : (s.wraps .responder).finished = true → (s'.wraps .responder).finished = true)
    (hab : (s'.wraps .responder).abandoned = true → (s'.wraps .responder).finished = true)
    (hcl : (s'.wraps .responder).closer ≠ none → (s'.wraps .responder).finished = true)
    (hrf : (s'.dirs .initiator).relay.fin = true →
      (s.dirs .initiator).relay.fin = true ∨ (s'.wraps .responder).finished = true)
    (hdf : (s'.dirs .initiator).direct.fin = true →
      (s.dirs .initiator).direct.fin = true ∨ (s'.wraps .responder).finished = true)
    (heof : (s'.dirs .initiator).eof = true →
      (s.dirs .initiator).eof = true ∨ (s'.wraps .responder).finished = true) : Committed s' where
  initiator := by rw [hwi, hi]; exact h.initiator
  responder := by rw [hwr, hr]; exact h.responder
  reader hp := by
    rw [hi]
    exact (hrd hp).elim h.reader h.initiator.mp
  stream := by rw [hi, hst]; exact h.stream
  framed := by rw [hf, hi]; exact h.framed
  working := by rw [hr, hi]; exact h.working
  refused := by rw [hr, hi]; exact h.refused
  abandoned := hab
  closer := hcl
  relay_fin hp := (hrf hp).elim (fun hp => hfin (h.relay_fin hp)) id
  direct_fin hp := by
    rw [hi]
    rcases hdf hp with hp | hp
    · exact (h.direct_fin hp).imp_left hfin
    · exact Or.inl hp
  eof hp := (heof hp).elim (fun hp => hfin (h.eof hp)) id

/-- What `Committed` looks at. -/
def seen (s : Net L) :=
  (s.ipc, s.rpc, s.frame, s.stream, (s.wraps .initiator).inner, (s.wraps .responder).inner,
    (s.dirs .initiator).reader, (s.wraps .responder).finished, (s.wraps .responder).abandoned,
    (s.wraps .responder).closer, (s.dirs .initiator).relay.fin, (s.dirs .initiator).direct.fin,
    (s.dirs .initiator).eof)

theorem Committed.congr (h : Committed s) (hs : seen s' = seen s) : Committed s' := by
  simp only [seen, Prod.mk.injEq] at hs
  obtain ⟨hi, hr, hf, hst, hwi, hwr, hrd, hfin, hab, hcl, hrf, hdf, heof⟩ := hs
  refine h.frame hi hr hf hst hwi hwr ?_ ?_ ?_ ?_ ?_ ?_ ?_
  · exact fun hp => Or.inl (hrd ▸ hp)
  · exact fun hp => hfin ▸ hp
  · rw [hab, hfin]; exact h.abandoned
  · rw [hcl, hfin]; exact h.closer
  · exact fun hp => Or.inl (hrf ▸ hp)
  · exact fun hp => Or.inl (hdf ▸ hp)
  · exact fun hp => Or.inl (heof ▸ hp)

/-- A step of `MigrateToDirect`, which does not come back from a failure. -/
theorem Committed.initiatorStep (h : Committed s) (hlive : s.ipc ≠ .failed) (hr : s'.rpc = s.rpc)
    (hwr : s'.wraps .responder = s.wraps .responder)
    (hrd : (s'.dirs .initiator).reader = (s.dirs .initiator).reader)
    (hrf : (s'.dirs .initiator).relay.fin = (s.dirs .initiator).relay.fin)
    (hdf : (s'.dirs .initiator).direct.fin = (s.dirs .initiator).direct.fin)
    (heof : (s'.dirs .initiator).eof = (s.dirs .initiator).eof)
    (hin : (s'.wraps .initiator).inner = .direct ↔ s'.ipc.moved = true)
    (hmoved : s.ipc.moved = true → s'.ipc.moved = true)
    (hstream : s'.ipc = .failed ∨ s'.stream = true)
    (hframe : s'.frame ≠ none → s'.ipc.hasSent = true)
    (hsent : s.ipc.hasSent = true → s'.ipc.hasSent = true) : Committed s' where
  initiator := hin
  responder := by rw [hwr, hr]; exact h.responder
  reader hp := hmoved (h.reader (hrd ▸ hp))
  stream := Or.inr hstream
  framed := hframe
  working hw := hsent (h.working (hr ▸ hw))
  refused hp := absurd (h.refused (hr ▸ hp)) hlive
  abandoned := by rw [hwr]; exact h.abandoned
  closer := by rw [hwr]; exact h.closer
  relay_fin := by rw [hrf, hwr]; exact h.relay_fin
  direct_fin hp := by
    rw [hwr]
    exact Or.inl ((h.direct_fin (hdf ▸ hp)).resolve_right hlive)
  eof := by rw [heof, hwr]; exact h.eof

/-- A step of `handleDirectStream`. -/
theorem Committed.responderStep (h : Committed s) (hi : s'.ipc = s.ipc)
    (hst : s'.stream = s.stream) (hf : s'.frame = s.frame)
    (hwi : s'.wraps .initiator = s.wraps .initiator)
    (hfin : (s'.wraps .responder).finished = (s.wraps .responder).finished)
    (hab : (s'.wraps .responder).abandoned = (s.wraps .responder).abandoned)
    (hcl : (s'.wraps .responder).closer = (s.wraps .responder).closer)
    (hrd : (s'.dirs .initiator).reader = (s.dirs .initiator).reader)
    (hrf : (s'.dirs .initiator).relay.fin = (s.dirs .initiator).relay.fin)
    (hdf : (s'.dirs .initiator).direct.fin = true →
      (s.dirs .initiator).direct.fin = true ∨ s.ipc = .failed)
    (heof : (s'.dirs .initiator).eof = (s.dirs .initiator).eof)
    (hres : (s'.wraps .responder).inner = .direct ↔ s'.rpc.moved = true)
    (hwork : s'.rpc.working = true → s.ipc.hasSent = true)
    (href : s'.rpc = .refused → s.ipc = .failed) : Committed s' where
  initiator := by rw [hwi, hi]; exact h.initiator
  responder := hres
  reader := by rw [hrd, hi]; exact h.reader
  stream := by rw [hi, hst]; exact h.stream
  framed := by rw [hf, hi]; exact h.framed
  working := by rw [hi]; exact hwork
  refused := by rw [hi]; exact href
  abandoned := by rw [hab, hfin]; exact h.abandoned
  closer := by rw [hcl, hfin]; exact h.closer
  relay_fin := by rw [hrf, hfin]; exact h.relay_fin
  direct_fin hp := by
    rw [hfin, hi]
    exact (hdf hp).elim h.direct_fin Or.inr
  eof := by rw [heof, hfin]; exact h.eof

theorem committed_step (h : Committed s) (hq : accepting s a = true) (hm : Moves s a s') :
    Committed s' := by
  cases hm with
  | readCapture x hr =>
    cases x with
    | initiator =>
      exact h.frame rfl rfl rfl rfl rfl rfl (fun hp => Or.inr (by simpa [ReadPc.path] using hp)) id
        h.abandoned h.closer Or.inl Or.inl Or.inl
    | responder => exact h.congr (by simp [seen])
  | innerRead x n p hr _ _ | readErr x p hr | onRead x p cs hr =>
    cases x with
    | initiator =>
      refine h.frame rfl rfl rfl rfl rfl rfl ?_ id h.abandoned h.closer ?_ ?_ ?_ <;>
        simp +contextual [ReadPc.path, Dir.give, hr]
    | responder => exact h.congr (by simp [seen])
  | readEof x p hr hf =>
    cases x with
    | initiator =>
      have hfin : (s.wraps .responder).finished = true := by
        cases p with
        | relay => exact h.relay_fin hf
        | direct =>
          refine (h.direct_fin hf).resolve_right fun hfail => ?_
          have hmv := h.reader (by rw [hr]; rfl)
          exact absurd hmv (by simp [hfail, InitPc.moved])
      exact h.frame rfl rfl rfl rfl rfl rfl (fun hp => by cases hp) id h.abandoned h.closer Or.inl
        Or.inl (fun _ => Or.inr hfin)
    | responder => exact h.congr (by simp [seen])
  | write x bs _ | writeCapture x bs _ | writeErr x bs _ | innerWrite x k p bs _
  | onWrite x cs rest _ =>
    cases x <;> exact h.congr (by simp [seen, Role.peer])
  | applyCheckpoint x p => cases x <;> exact h.congr (by simp [seen])
  | closeWrite x | close x =>
    cases x with
    | initiator => exact h.congr (by simp [seen])
    | responder =>
      exact h.frame rfl rfl rfl rfl rfl rfl Or.inl (fun _ => rfl) (fun _ => rfl) (fun _ => rfl)
        Or.inl Or.inl Or.inl
  | closeCapture x hc =>
    cases x with
    | initiator => exact h.congr (by simp [seen])
    | responder =>
      exact h.frame rfl rfl rfl rfl rfl rfl Or.inl id h.abandoned (fun _ => h.abandoned hc)
        Or.inl Or.inl Or.inl
  | closeInner x p hc =>
    cases x with
    | initiator => exact h.congr (by simp [seen, Role.peer])
    | responder =>
      have hfin : (s.wraps .responder).finished = true := h.closer (by simp [hc])
      cases p <;> exact h.frame rfl rfl rfl rfl rfl rfl Or.inl id h.abandoned (fun _ => hfin)
        (fun _ => Or.inr hfin) (fun _ => Or.inr hfin) Or.inl
  | openStream hp | openErr hp | resumePayload hp | writeResume hp | writeResumeErr hp =>
    have hin := h.initiator
    have hframe := h.framed
    have hstream := h.stream
    refine h.initiatorStep (by simp [hp]) rfl rfl rfl rfl rfl rfl ?_ ?_ ?_ ?_ ?_ <;>
      simp_all [InitPc.moved, InitPc.hasSent]
  | swapInitiator hp =>
    have hstream := h.stream
    refine h.initiatorStep (by simp [hp]) rfl rfl rfl rfl rfl rfl ?_ ?_ ?_ ?_ ?_ <;>
      simp_all [InitPc.moved, InitPc.hasSent]
  | cancelInitiator hp =>
    have hin := h.initiator
    have hstream := h.stream
    refine h.initiatorStep (by simp [hp]) rfl rfl rfl rfl rfl rfl ?_ ?_ ?_ ?_ ?_ <;>
      simp_all [InitPc.moved, InitPc.hasSent]
  | parseFrame hp hf =>
    have hres := h.responder
    have hframe := h.framed (by simp [hf])
    refine h.responderStep rfl rfl rfl rfl rfl rfl rfl rfl rfl .inl rfl ?_ (fun _ => hframe) ?_ <;>
      simp_all [RespPc.moved]
  | lookup hp _ | retransmitFrom hp _ | writeGap hp | swapResponder hp | cancelResponder hp =>
    have hres := h.responder
    have hwork := h.working (by simp [hp, RespPc.working])
    refine h.responderStep rfl rfl rfl rfl rfl rfl rfl rfl rfl .inl rfl ?_ (fun _ => hwork) ?_ <;>
      simp_all [RespPc.moved]
  | parseErr hp =>
    have hres := h.responder
    have hfail : s.ipc = .failed := by simpa [accepting] using hq
    refine h.responderStep rfl rfl rfl rfl rfl rfl rfl rfl rfl (fun _ => .inr hfail) rfl ?_ ?_
      (fun _ => hfail) <;> simp_all [RespPc.moved, RespPc.working, Net.refuse]
  | unknown hp hr => exact absurd hq (by simp [accepting, hr])
  | evicted hp hg => exact absurd hq (by simp [accepting, hp, hg])
  | writeGapErr k hp => exact absurd hq (by simp [accepting])

/-- **When the two sides of a migration agree.** In every run in which `handleDirectStream` takes
none of its error branches on a stream whose `MigrateToDirect` goes through, the wrappers are
attached to the same transport stream whenever both sides have finished, and a clean `io.EOF` at
the initiator means that the responder's application has finished. -/
theorem migration_agreement (h : (machine L).ReachWhile (fun s a => accepting s a = true) s) :
    (Settled s → (s.wraps .initiator).inner = (s.wraps .responder).inner) ∧
      ((s.dirs .initiator).eof = true → (s.wraps .responder).finished = true) := by
  have hc : Committed s := Machine.ReachWhile.invariant (M := machine L) committed_init
    (fun _ _ _ _ hi hq hs => committed_step hi hq (step_moves hs)) h
  refine ⟨?_, hc.eof⟩
  rintro ⟨hi, hr⟩
  rcases hi with hi | hi
  · -- it went through, so it was not refused
    have hrpc : s.rpc = .done := by
      rcases hr with hr | hr | hr
      · exact hr
      · exact absurd (hc.refused hr) (by simp [hi])
      · exact absurd hc.stream (by simp [hi, hr])
    rw [hc.initiator.mpr (by rw [hi]; rfl), hc.responder.mpr (by rw [hrpc]; rfl)]
  · -- it failed, so neither wrapper has been swapped
    have hI : (s.wraps .initiator).inner ≠ .direct := fun h1 => by
      have := hc.initiator.mp h1
      simp [hi, InitPc.moved] at this
    have hR : (s.wraps .responder).inner ≠ .direct := fun h1 => by
      have hm := hc.responder.mp h1
      have hsent := hc.working (by cases hp : s.rpc <;> simp_all [RespPc.moved, RespPc.working])
      simp [hi, InitPc.hasSent] at hsent
    cases h1 : (s.wraps .initiator).inner <;> cases h2 : (s.wraps .responder).inner <;> simp_all

theorem migration_agreement_quietRun : ∃ s, (machine (ResumeLib.ringLib (Cell ℕ) 8)).ReachWhile
      (fun s a => accepting s a = true) s ∧ Settled s ∧
    (s.wraps .initiator).inner = (s.wraps .responder).inner := by
  have hr := Machine.reachWhile_of_run (M := machine (ResumeLib.ringLib (Cell ℕ) 8))
    (C := accepting) [.write .responder [1, 2], .writeCapture .responder, .innerWrite .responder 2,
      .onWrite .responder, .openStream, .resumePayload, .writeResume, .swapInner .initiator,
      .cancelRead .initiator, .parseFrame, .lookup, .retransmitFrom, .writeGap,
      .swapInner .responder, .cancelRead .responder] rfl
  have hset := (migration_agreement hr).1
  exact ⟨_, hr, ⟨Or.inl rfl, Or.inl rfl⟩, hset ⟨Or.inl rfl, Or.inl rfl⟩⟩

/-- **The two sides end on different streams.** The responder's ring holds one byte; two have been
written and none read when the initiator announces position 0. The responder's wrapper is still
registered and its application has not finished. -/
theorem migration_splits : ∃ s, (machine (ResumeLib.ringLib (Cell ℕ) 1)).Reach s ∧ Settled s ∧
    (s.wraps .initiator).inner = .direct ∧ (s.wraps .responder).inner = .relay ∧
    (s.dirs .initiator).eof = true ∧ (s.wraps .responder).registered = true ∧
    (s.wraps .responder).finished = false := by
  refine ⟨_, Machine.reach_of_run [.write .responder [1, 2], .writeCapture .responder,
    .innerWrite .responder 2, .onWrite .responder, .openStream, .resumePayload, .writeResume,
    .swapInner .initiator, .cancelRead .initiator, .parseFrame, .lookup, .retransmitFrom,
    .readCapture .initiator, .readEof .initiator] rfl, ⟨Or.inl rfl, Or.inr (Or.inl rfl)⟩, rfl, rfl,
    rfl, rfl, rfl⟩

end OutRelayAgent.Migrate
