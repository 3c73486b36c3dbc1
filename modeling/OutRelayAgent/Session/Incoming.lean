import OutRelayAgent.Lib.Script
import Mathlib.Logic.Function.Basic

/-!
# One incoming stream, from its first frame to its end

`handleIncoming` (`session.go:890-981`) with the pieces it is made of: `bridge`
(`session.go:984-1002`), `wrapStream`, `forgetStream` and `ResumableStream.Close`
(`session.go:381-410`, `550-573`), and `RegisterStreamModeWaiter`, `CancelStreamModeWaiter` and
`WaitForStreamMode` (`promote.go:289-361`). It holds up to four things: the relay stream, the
backend that the handler has opened, the entry in `s.streams` and the entry in `s.pendingMode`.

* The environment decides which frame arrives, what the handler and `AcceptForward` return, and
  whether a frame can be written. `bridge` returns.
* The other goroutines (`Rely`) do what they like: expose services, turn P2P on, deliver mode
  signals, open and close other streams. They may also drop this stream, as `Reconnect` does. They
  do not use its id, and no `SwapInner` replaces its inner.

`incoming_cleans_up`: on every way out, at most one of `STREAM_ACCEPT` and `STREAM_REJECT` has been
sent, `STREAM_ACCEPT` exactly if there is a backend, and nothing is left: the stream and the backend
are closed, and neither table has the id.
-/

namespace OutRelayAgent.Incoming

open Lib Lib.Script

/-- `orpv1.IncomingStream`. -/
structure IncomingStream (ID N : Type) where
  streamId : ID
  targetService : N

/-- The first frame of a stream. -/
inductive Frame (ID N : Type)
  | incoming (i : IncomingStream ID N)
  /-- An `INCOMING_STREAM` whose body is not a message. -/
  | malformed
  | other (type : ℕ)

inductive Reason (ε : Type)
  /-- `no handler` -/
  | noHandler
  | handler (e : ε)

/-- `orpv1.StreamReject`. -/
structure StreamReject (ε : Type) where
  code : ℕ
  reason : Reason ε

/-- A `ResumableStream`. -/
structure Wrapper (ID : Type) where
  id : ID
  /-- The number of a transport stream. -/
  inner : ℕ
  abandoned : Bool

/-- The session, and what has been closed. `G` is what an `ALLOC_GRANTED` carries. -/
structure World (ID N G : Type) where
  /-- The services in `s.handlers`. -/
  handlers : N → Bool
  p2pEnabled : Bool
  forwardTLS : Bool
  streams : ID → Option ℕ
  wrappers : ℕ → Wrapper ID
  nextRef : ℕ
  /-- `s.pendingMode`, with channels by their numbers. -/
  pendingMode : ID → Option ℕ
  /-- What is in the channels. -/
  notices : ℕ → Option (Option G)
  nextChan : ℕ
  closedStreams : List ℕ
  nextBackend : ℕ
  closedBackends : List ℕ
  nextForward : ℕ
  closedForwards : List ℕ

inductive Label (ID N ε : Type)
  | received (r : Except ε (Frame ID N))
  /-- The handler has returned. -/
  | handled (r : Except ε ℕ)
  | sentAccept (r : Except ε Unit)
  | sentReject (m : StreamReject ε) (r : Except ε Unit)
  | silent

section Code

variable {ID N G ε : Type}

/-- Code that runs against a session: one step for each call into the peer or the handler and for
each lock section. -/
abbrev Code (ID N G ε : Type) := Script (World ID N G) (Label ID N ε)

/-- A step that looks at the session. -/
def look {α : Type} (g : World ID N G → α) : Code ID N G ε α :=
  step (fun (_ : Unit) w => (.silent, w)) fun _ w => g w

/-- A step that changes it. -/
def change (f : World ID N G → World ID N G) : Code ID N G ε Unit :=
  step (fun (_ : Unit) w => (.silent, f w)) fun _ _ => ()

/-- `orp.ParseFrame(st)`, on a stream that only this goroutine reads. -/
def parseFrame : Code ID N G ε (Except ε (Frame ID N)) :=
  step (fun (c : Except ε (Frame ID N)) w => (.received c, w)) fun c _ => c

/-- `h(ctx, in)` -/
def callHandler : Code ID N G ε (Except ε ℕ) :=
  step
    (fun (c : Except ε Unit) w =>
      match c with
      | .ok _ => (.handled (.ok w.nextBackend), { w with nextBackend := w.nextBackend + 1 })
      | .error e => (.handled (.error e), w))
    fun c w => c.map fun _ => w.nextBackend

def sendAccept : Code ID N G ε (Except ε Unit) :=
  step (fun (c : Except ε Unit) w => (.sentAccept c, w)) fun c _ => c

def sendReject (m : StreamReject ε) : Code ID N G ε Unit :=
  step (fun (c : Except ε Unit) w => (.sentReject m c, w)) fun _ _ => ()

def closeStream (st : ℕ) : Code ID N G ε Unit :=
  change fun w => { w with closedStreams := st :: w.closedStreams }

def closeBackend (b : ℕ) : Code ID N G ε Unit :=
  change fun w => { w with closedBackends := b :: w.closedBackends }

def closeForward (fs : ℕ) : Code ID N G ε Unit :=
  change fun w => { w with closedForwards := fs :: w.closedForwards }

def whenEnabled (ena : Bool) (x : Code ID N G ε Unit) : Code ID N G ε Unit :=
  if ena then x else pure ()

/-- `ResumableStream.markAbandoned`. -/
def markAbandoned (ref : ℕ) : Code ID N G ε Unit :=
  change fun w => { w with
    wrappers := Function.update w.wrappers ref { w.wrappers ref with abandoned := true } }

/-- `AcceptForward(ctx, granted, ftls, ..)` -/
def acceptForward (_ : G) : Code ID N G ε (Except ε ℕ) :=
  step
    (fun (c : Except ε Unit) w =>
      match c with
      | .ok _ => (.silent, { w with nextForward := w.nextForward + 1 })
      | .error _ => (.silent, w))
    fun c w => c.map fun _ => w.nextForward

/-- The `select` of `WaitForStreamMode`: the signal, if there is one and it is in time. -/
def selectMode (ch : ℕ) : Code ID N G ε (Option G) :=
  step
    (fun (inTime : Bool) w =>
      (.silent, if inTime then { w with notices := Function.update w.notices ch none } else w))
    fun inTime w => if inTime then (w.notices ch).join else none

variable [DecidableEq ID]

def registerStreamModeWaiter (id : ID) : Code ID N G ε Unit :=
  change fun w => { w with
    pendingMode := Function.update w.pendingMode id (some w.nextChan)
    notices := Function.update w.notices w.nextChan none
    nextChan := w.nextChan + 1 }

def cancelStreamModeWaiter (id : ID) : Code ID N G ε Unit :=
  change fun w => { w with pendingMode := Function.update w.pendingMode id none }

def waitForStreamMode (id : ID) : Code ID N G ε (Option G) := do
  match ← look fun w => w.pendingMode id with
  | none => return none
  | some ch =>
    let granted ← selectMode ch
    cancelStreamModeWaiter id
    return granted

def wrapStream (id : ID) (st : ℕ) : Code ID N G ε ℕ :=
  step
    (fun (_ : Unit) w => (.silent, { w with
      streams := Function.update w.streams id (some w.nextRef)
      wrappers := Function.update w.wrappers w.nextRef ⟨id, st, false⟩
      nextRef := w.nextRef + 1 }))
    fun _ w => w.nextRef

/-- `forgetStream`: the entry is removed under the lock, and the wrapper it had is marked. -/
def forgetStream (id : ID) : Code ID N G ε Unit := do
  let found ← step
    (fun (_ : Unit) w => (.silent, { w with streams := Function.update w.streams id none }))
    fun _ w => w.streams id
  match found with
  | some ref => markAbandoned ref
  | none => pure ()

/-- `ResumableStream.Close`, of the wrapper `ref` with the id `id`. -/
def closeWrapped (id : ID) (ref : ℕ) : Code ID N G ε Unit := do
  forgetStream id
  markAbandoned ref
  let inner ← look fun w => (w.wrappers ref).inner
  closeStream inner

/-- `bridge(wrapped, backend)`, once both directions are done. -/
def bridge (id : ID) (ref backend : ℕ) : Code ID N G ε Unit := do
  closeWrapped id ref
  closeBackend backend

/-- From the wait for the mode on. -/
def serve (id : ID) (ref backend : ℕ) (ena : Bool) : Code ID N G ε Unit := do
  if ena then
    match ← waitForStreamMode id with
    | none => bridge id ref backend
    | some granted =>
      let ftls ← look fun w => w.forwardTLS
      if ftls then
        match ← acceptForward granted with
        | .error _ => closeBackend backend
        | .ok fs =>
          -- `bridge(fs.Stream(), backend)`, and then the deferred `fs.Close()`.
          closeForward fs
          closeBackend backend
          closeForward fs
      else bridge id ref backend
  else bridge id ref backend

/-- From the backend on. -/
def accept (st : ℕ) (id : ID) (backend : ℕ) : Code ID N G ε Unit := do
  let ena ← look fun w => w.p2pEnabled
  whenEnabled ena (registerStreamModeWaiter id)
  match ← sendAccept with
  | .error _ =>
    whenEnabled ena (cancelStreamModeWaiter id)
    closeBackend backend
    closeStream st
  | .ok _ =>
    let ref ← wrapStream id st
    serve id ref backend ena
    -- The deferred `wrapped.Close()`.
    closeWrapped id ref

def handleIncoming (st : ℕ) : Code ID N G ε Unit := do
  match ← parseFrame with
  | .error _ => closeStream st
  | .ok (.other _) => closeStream st
  | .ok .malformed => closeStream st
  | .ok (.incoming i) =>
    let found ← look fun w => w.handlers i.targetService
    if found then
      match ← callHandler with
      | .error e =>
        sendReject ⟨502, .handler e⟩
        closeStream st
      | .ok backend => accept st i.streamId backend
    else
      sendReject ⟨404, .noHandler⟩
      closeStream st

end Code

/-! ## What the others may do -/

section Others

variable {ID N G ε : Type}

/-- Closed things stay closed, and a wrapper keeps its inner. -/
structure Grows (w w' : World ID N G) : Prop where
  nextRef : w.nextRef ≤ w'.nextRef
  inner : ∀ ref < w.nextRef, (w'.wrappers ref).inner = (w.wrappers ref).inner
  closedStreams : ∀ st ∈ w.closedStreams, st ∈ w'.closedStreams
  closedBackends : ∀ b ∈ w.closedBackends, b ∈ w'.closedBackends

/-- The others use the id for nothing. -/
structure Rely (id : ID) (w w' : World ID N G) : Prop extends Grows w w' where
  streams : w.streams id = none → w'.streams id = none
  waiter : w.pendingMode id = none → w'.pendingMode id = none

variable {id : ID} {w w' w'' : World ID N G}

theorem Grows.trans (h : Grows w w') (h' : Grows w' w'') : Grows w w'' where
  nextRef := Nat.le_trans h.nextRef h'.nextRef
  inner ref hlt := (h'.inner ref (Nat.lt_of_lt_of_le hlt h.nextRef)).trans (h.inner ref hlt)
  closedStreams st hst := h'.closedStreams st (h.closedStreams st hst)
  closedBackends b hb := h'.closedBackends b (h.closedBackends b hb)

/-- What `Rely` is about. -/
def World.core (w : World ID N G) :=
  (w.nextRef, w.wrappers, w.closedStreams, w.closedBackends, w.streams, w.pendingMode)

theorem Rely.of_core (h : w'.core = w.core) : Rely id w w' := by
  simp only [World.core, Prod.mk.injEq] at h
  obtain ⟨href, hwrappers, hclosed, hbackends, hstreams, hpending⟩ := h
  refine ⟨⟨Nat.le_of_eq href.symm, fun _ _ => by rw [hwrappers], fun _ hst => hclosed ▸ hst,
    fun _ hb => hbackends ▸ hb⟩, fun hs => hstreams ▸ hs, fun hw => hpending ▸ hw⟩

theorem Rely.refl (w : World ID N G) : Rely id w w := Rely.of_core rfl

theorem Rely.trans (h : Rely id w w') (h' : Rely id w' w'') : Rely id w w'' :=
  ⟨h.toGrows.trans h'.toGrows, fun hs => h'.streams (h.streams hs),
    fun hw => h'.waiter (h.waiter hw)⟩

end Others

/-! ## What each piece does -/

section Pieces

variable {ID N G ε : Type} {id : ID} {w : World ID N G}

def Label.isSilent : Label ID N ε → Bool
  | .silent => true
  | _ => false

/-- The labels of the steps that say something. -/
def said (tr : List (Event (World ID N G) (Label ID N ε))) : List (Label ID N ε) :=
  (tr.map (·.label)).filter fun l => !l.isSilent

theorem said_append (tr tr' : List (Event (World ID N G) (Label ID N ε))) :
    said (tr ++ tr') = said tr ++ said tr' := by
  rw [said, List.map_append, List.filter_append, said, said]

/-- The code says nothing, and `Q` holds of its result, the state before it and the state after. -/
def Quiet (id : ID) {α : Type} (x : Code ID N G ε α)
    (Q : World ID N G → α → World ID N G → Prop) : Prop :=
  ∀ w, Spec (Rely id) w x fun tr a w' => said tr = [] ∧ Q w a w'

section Rules

variable {α ρ : Type} {Q : World ID N G → α → World ID N G → Prop}

theorem quiet_pure {a : α} (h : ∀ w w', Rely id w w' → Q w a w') :
    Quiet id (pure a : Code ID N G ε α) Q :=
  fun w => spec_pure fun w' hR => ⟨rfl, h w w' hR⟩

theorem Quiet.mono {Q' : World ID N G → α → World ID N G → Prop} {x : Code ID N G ε α}
    (h : Quiet id x Q) (himp : ∀ w a w', Q w a w' → Q' w a w') : Quiet id x Q' :=
  fun w => (h w).mono fun _ a w' h => ⟨h.1, himp w a w' h.2⟩

theorem quiet_bind {x : Code ID N G ε α} {g : α → Code ID N G ε ρ}
    {M : World ID N G → α → World ID N G → Prop} {Q : World ID N G → ρ → World ID N G → Prop}
    (hx : Quiet id x M)
    (hg : ∀ w a t, M w a t → Quiet id (g a) fun t' r w' => t' = t → Q w r w') :
    Quiet id (x >>= g) Q := by
  refine fun w => spec_bind Rely.refl (hx w) fun tr a t ⟨htr, hM⟩ => ?_
  refine (hg w a t hM t).mono fun tr' r w' ⟨htr', hQ⟩ => ⟨?_, hQ rfl⟩
  rw [said_append, htr, htr', List.append_nil]

end Rules

theorem quiet_look {α : Type} (g : World ID N G → α) :
    Quiet id (look g : Code ID N G ε α) fun w a w' => ∃ t, Rely id w t ∧ a = g t ∧ Rely id t w' :=
  fun _ => spec_step fun _ t _ hR hR' => ⟨rfl, t, hR, rfl, hR'⟩

theorem quiet_change (f : World ID N G → World ID N G) :
    Quiet id (change f : Code ID N G ε Unit) fun w _ w' => ∃ t, Rely id w t ∧ Rely id (f t) w' :=
  fun _ => spec_step fun _ t _ hR hR' => ⟨rfl, t, hR, hR'⟩

/-- A change the others could have made as well. -/
theorem quiet_change_rely {f : World ID N G → World ID N G} (hf : ∀ t, Rely id t (f t)) :
    Quiet id (change f : Code ID N G ε Unit) fun w _ w' =>
      Rely id w w' ∧ ∃ t, Rely id (f t) w' :=
  (quiet_change f).mono fun _ _ _ ⟨t, hR, hR'⟩ => ⟨hR.trans ((hf t).trans hR'), t, hR'⟩

theorem quiet_closeStream (st : ℕ) :
    Quiet id (closeStream st : Code ID N G ε Unit) fun w _ w' =>
      Rely id w w' ∧ st ∈ w'.closedStreams := by
  refine (quiet_change_rely fun t => ?_).mono fun w _ w' ⟨hR, t, hR'⟩ =>
    ⟨hR, hR'.closedStreams st List.mem_cons_self⟩
  exact ⟨⟨Nat.le_refl _, fun _ _ => rfl, fun _ h => List.mem_cons_of_mem _ h, fun _ h => h⟩,
    fun h => h, fun h => h⟩

theorem quiet_closeBackend (b : ℕ) :
    Quiet id (closeBackend b : Code ID N G ε Unit) fun w _ w' =>
      Rely id w w' ∧ b ∈ w'.closedBackends := by
  refine (quiet_change_rely fun t => ?_).mono fun w _ w' ⟨hR, t, hR'⟩ =>
    ⟨hR, hR'.closedBackends b List.mem_cons_self⟩
  exact ⟨⟨Nat.le_refl _, fun _ _ => rfl, fun _ h => h, fun _ h => List.mem_cons_of_mem _ h⟩,
    fun h => h, fun h => h⟩

theorem quiet_closeForward (fs : ℕ) :
    Quiet id (closeForward fs : Code ID N G ε Unit) fun w _ w' => Rely id w w' := by
  refine (quiet_change_rely fun t => ?_).mono fun w _ w' h => h.1
  exact Rely.of_core rfl

theorem quiet_markAbandoned (ref : ℕ) :
    Quiet id (markAbandoned ref : Code ID N G ε Unit) fun w _ w' => Rely id w w' := by
  refine (quiet_change_rely fun t => ?_).mono fun w _ w' h => h.1
  refine ⟨⟨Nat.le_refl _, fun r _ => ?_, fun _ h => h, fun _ h => h⟩, fun h => h, fun h => h⟩
  by_cases hr : r = ref
  · subst hr
    simp
  · simp [hr]

theorem quiet_acceptForward (granted : G) :
    Quiet id (acceptForward granted : Code ID N G ε (Except ε ℕ)) fun w _ w' => Rely id w w' := by
  refine fun w => spec_step fun c t w' hR hR' => ?_
  cases c with
  | error e => exact ⟨rfl, hR.trans hR'⟩
  | ok u =>
    refine ⟨rfl, hR.trans (Rely.trans ?_ hR')⟩
    exact Rely.of_core rfl

theorem quiet_selectMode (ch : ℕ) :
    Quiet id (selectMode ch : Code ID N G ε (Option G)) fun w _ w' => Rely id w w' := by
  refine fun w => spec_step fun inTime t w' hR hR' => ⟨rfl, hR.trans (Rely.trans ?_ hR')⟩
  cases inTime with
  | false => exact Rely.refl t
  | true => exact Rely.of_core rfl

variable [DecidableEq ID]

theorem quiet_cancelStreamModeWaiter :
    Quiet id (cancelStreamModeWaiter id : Code ID N G ε Unit) fun w _ w' =>
      Rely id w w' ∧ w'.pendingMode id = none := by
  refine (quiet_change_rely fun t => ?_).mono fun w _ w' ⟨hR, t, hR'⟩ =>
    ⟨hR, hR'.waiter (Function.update_self ..)⟩
  exact ⟨⟨Nat.le_refl _, fun _ _ => rfl, fun _ h => h, fun _ h => h⟩, fun h => h,
    fun _ => Function.update_self ..⟩

theorem quiet_registerStreamModeWaiter :
    Quiet id (registerStreamModeWaiter id : Code ID N G ε Unit) fun w _ w' =>
      Grows w w' ∧ (w.streams id = none → w'.streams id = none) := by
  refine (quiet_change _).mono fun w _ w' ⟨t, hR, hR'⟩ => ⟨?_, fun h => hR'.streams (hR.streams h)⟩
  refine hR.toGrows.trans (Grows.trans ?_ hR'.toGrows)
  exact ⟨Nat.le_refl _, fun _ _ => rfl, fun _ h => h, fun _ h => h⟩

/-- Whether or not it finds a waiter, there is none after it. -/
theorem quiet_waitForStreamMode :
    Quiet id (waitForStreamMode id : Code ID N G ε (Option G)) fun w _ w' =>
      Rely id w w' ∧ w'.pendingMode id = none := by
  refine quiet_bind (quiet_look _) ?_
  rintro w (_ | ch) t ⟨t', hR, hpending, hR'⟩
  · refine quiet_pure ?_
    rintro _ w' hR'' rfl
    exact ⟨hR.trans (hR'.trans hR''), hR''.waiter (hR'.waiter hpending.symm)⟩
  · refine quiet_bind (quiet_selectMode ch) fun t₁ granted t₂ hselect => ?_
    refine quiet_bind quiet_cancelStreamModeWaiter fun t₃ _ t₄ ⟨hcancel, hnone⟩ => ?_
    refine quiet_pure ?_
    rintro _ w' hR'' rfl rfl rfl
    exact ⟨hR.trans (hR'.trans (hselect.trans (hcancel.trans hR''))), hR''.waiter hnone⟩

theorem quiet_wrapStream (st : ℕ) :
    Quiet id (wrapStream id st : Code ID N G ε ℕ) fun w ref w' =>
      Grows w w' ∧ (w.pendingMode id = none → w'.pendingMode id = none) ∧ ref < w'.nextRef ∧
        (w'.wrappers ref).inner = st := by
  refine fun w => spec_step fun _ t w' hR hR' => ⟨rfl, ?_, ?_, ?_, ?_⟩
  · refine hR.toGrows.trans (Grows.trans ?_ hR'.toGrows)
    refine ⟨Nat.le_succ _, fun r hr => ?_, fun _ h => h, fun _ h => h⟩
    simp [Nat.ne_of_lt hr]
  · exact fun h => hR'.waiter (hR.waiter h)
  · exact hR'.nextRef
  · rw [hR'.inner t.nextRef (Nat.lt_succ_self _)]
    simp

theorem quiet_forgetStream :
    Quiet id (forgetStream id : Code ID N G ε Unit) fun w _ w' =>
      Rely id w w' ∧ w'.streams id = none := by
  refine quiet_bind (M := fun w _ w' => Rely id w w' ∧ w'.streams id = none)
    (fun w => spec_step fun _ t w' hR hR' => ⟨rfl, ?_, ?_⟩) ?_
  · refine hR.trans (Rely.trans ?_ hR')
    exact ⟨⟨Nat.le_refl _, fun _ _ => rfl, fun _ h => h, fun _ h => h⟩,
      fun _ => Function.update_self .., fun h => h⟩
  · exact hR'.streams (Function.update_self ..)
  · rintro w (_ | ref) t ⟨hR, hnone⟩
    · refine quiet_pure ?_
      rintro _ w' hR' rfl
      exact ⟨hR.trans hR', hR'.streams hnone⟩
    · refine (quiet_markAbandoned ref).mono ?_
      rintro _ _ w' hR' rfl
      exact ⟨hR.trans hR', hR'.streams hnone⟩

theorem quiet_closeWrapped (ref : ℕ) :
    Quiet id (closeWrapped id ref : Code ID N G ε Unit) fun w _ w' =>
      Rely id w w' ∧ w'.streams id = none ∧
        (ref < w.nextRef → (w.wrappers ref).inner ∈ w'.closedStreams) := by
  refine quiet_bind quiet_forgetStream fun w _ t₁ ⟨hforget, hnone⟩ => ?_
  refine quiet_bind (quiet_markAbandoned ref) fun t₁' _ t₂ hmark => ?_
  refine quiet_bind (quiet_look _) fun t₂' inner t₃ ⟨t, hR, hinner, hR'⟩ => ?_
  refine (quiet_closeStream inner).mono ?_
  rintro t₃' _ w' ⟨hclose, hclosed⟩ rfl rfl rfl
  have hrely : Rely id w t := hforget.trans (hmark.trans hR)
  refine ⟨hrely.trans (hR'.trans hclose), ?_, fun hlt => ?_⟩
  · exact hclose.streams (hR'.streams (hR.streams (hmark.streams hnone)))
  · rw [← hrely.inner ref hlt, ← hinner]
    exact hclosed

theorem quiet_bridge (ref backend : ℕ) :
    Quiet id (bridge id ref backend : Code ID N G ε Unit) fun w _ w' =>
      Rely id w w' ∧ backend ∈ w'.closedBackends := by
  refine quiet_bind (quiet_closeWrapped ref) fun w _ t hclose => ?_
  refine (quiet_closeBackend backend).mono ?_
  rintro _ _ w' ⟨hR, hclosed⟩ rfl
  exact ⟨hclose.1.trans hR, hclosed⟩

/-- However the bytes flow, the backend is closed, and a waiter that was there is gone. -/
theorem quiet_serve (ref backend : ℕ) (ena : Bool) :
    Quiet id (serve id ref backend ena : Code ID N G ε Unit) fun w _ w' =>
      Rely id w w' ∧ backend ∈ w'.closedBackends ∧
        (ena = true → w'.pendingMode id = none) := by
  cases ena with
  | false => exact (quiet_bridge ref backend).mono fun w _ w' h => ⟨h.1, h.2, nofun⟩
  | true =>
    refine quiet_bind quiet_waitForStreamMode ?_
    rintro w (_ | granted) t ⟨hwait, hnone⟩
    · refine (quiet_bridge ref backend).mono ?_
      rintro _ _ w' ⟨hR, hclosed⟩ rfl
      exact ⟨hwait.trans hR, hclosed, fun _ => hR.waiter hnone⟩
    · refine quiet_bind (quiet_look _) ?_
      rintro t' ftls t₁ ⟨t₂, hR, -, hR'⟩
      have hlook := hR.trans hR'
      cases ftls with
      | false =>
        refine (quiet_bridge ref backend).mono ?_
        rintro _ _ w' ⟨hR, hclosed⟩ rfl rfl
        exact ⟨hwait.trans (hlook.trans hR), hclosed, fun _ => (hlook.trans hR).waiter hnone⟩
      | true =>
        refine quiet_bind (quiet_acceptForward granted) ?_
        rintro t₁' (e | fs) t₃ haccept
        · refine (quiet_closeBackend backend).mono ?_
          rintro _ _ w' ⟨hR, hclosed⟩ rfl rfl rfl
          have hrest := hlook.trans (haccept.trans hR)
          exact ⟨hwait.trans hrest, hclosed, fun _ => hrest.waiter hnone⟩
        · refine quiet_bind (quiet_closeForward fs) fun t₃' _ t₄ hfs => ?_
          refine quiet_bind (quiet_closeBackend backend) fun t₄' _ t₅ ⟨hbackend, hclosed⟩ => ?_
          refine (quiet_closeForward fs).mono ?_
          rintro _ _ w' hR rfl rfl rfl rfl rfl
          have hrest := hlook.trans (haccept.trans (hfs.trans (hbackend.trans hR)))
          exact ⟨hwait.trans hrest, hR.closedBackends _ hclosed, fun _ => hrest.waiter hnone⟩

end Pieces

/-! ## The whole -/

section Whole

variable {ID N G ε : Type} {id : ID} {st : ℕ}

/-- Nothing is left of the stream `st` with the id `id`. -/
structure Gone (st : ℕ) (id : ID) (w : World ID N G) : Prop where
  closed : st ∈ w.closedStreams
  streams : w.streams id = none
  waiter : w.pendingMode id = none

/-- A step that tells its outcome and leaves the session as it is. -/
theorem spec_tell {C α : Type} {l : C → Label ID N ε} (hl : ∀ c, (l c).isSilent = false)
    (g : C → α) (w : World ID N G) :
    Spec (Rely id) w (step (fun c w => (l c, w)) fun c _ => g c) fun tr a w' =>
      Rely id w w' ∧ ∃ c, a = g c ∧ said tr = [l c] := by
  refine spec_step fun c t w' hR hR' => ⟨hR.trans hR', c, rfl, ?_⟩
  simp [said, hl c]

theorem spec_callHandler (w : World ID N G) :
    Spec (Rely id) w (callHandler : Code ID N G ε _) fun tr r w' =>
      Rely id w w' ∧ said tr = [.handled r] := by
  refine spec_step fun c t w' hR hR' => ?_
  cases c with
  | error e => exact ⟨hR.trans hR', rfl⟩
  | ok u =>
    refine ⟨hR.trans (Rely.trans ?_ hR'), rfl⟩
    exact Rely.of_core rfl

/-- The end of a way out that has taken nothing but the stream. -/
theorem spec_closeStream {w : World ID N G} (hstreams : w.streams id = none)
    (hwaiter : w.pendingMode id = none) :
    Spec (Rely id) w (closeStream st : Code ID N G ε _) fun tr _ w' =>
      said tr = [] ∧ Gone st id w' :=
  (quiet_closeStream st w).mono fun _ _ _ ⟨htr, hR, hclosed⟩ =>
    ⟨htr, hclosed, hR.streams hstreams, hR.waiter hwaiter⟩

variable [DecidableEq ID]

/-- The waiter is installed only if P2P is enabled. -/
theorem quiet_register_enabled (ena : Bool) :
    Quiet id (whenEnabled ena (registerStreamModeWaiter id) : Code ID N G ε _) fun w _ w' =>
      Grows w w' ∧ (w.streams id = none → w'.streams id = none) ∧
        (ena = false → w.pendingMode id = none → w'.pendingMode id = none) := by
  cases ena with
  | false => exact quiet_pure fun w w' hR => ⟨hR.toGrows, hR.streams, fun _ => hR.waiter⟩
  | true => exact quiet_registerStreamModeWaiter.mono fun w _ w' h => ⟨h.1, h.2, nofun⟩

theorem quiet_cancel_enabled (ena : Bool) :
    Quiet id (whenEnabled ena (cancelStreamModeWaiter id) : Code ID N G ε _) fun w _ w' =>
      Rely id w w' ∧ (ena = true → w'.pendingMode id = none) := by
  cases ena with
  | false => exact quiet_pure fun w w' hR => ⟨hR, nofun⟩
  | true => exact quiet_cancelStreamModeWaiter.mono fun w _ w' h => ⟨h.1, fun _ => h.2⟩

theorem spec_accept (backend : ℕ) {w : World ID N G} (hstreams : w.streams id = none)
    (hwaiter : w.pendingMode id = none) :
    Spec (Rely id) w (accept st id backend : Code ID N G ε _) fun tr _ w' =>
      (∃ r, said tr = [.sentAccept r]) ∧ Gone st id w' ∧ backend ∈ w'.closedBackends := by
  refine spec_bind Rely.refl (quiet_look _ w) fun tr₁ ena t₁ ⟨h₁, t, hR, _, hR'⟩ => ?_
  have hlook := hR.trans hR'
  refine spec_bind Rely.refl (quiet_register_enabled ena t₁) fun tr₂ _ t₂ ⟨h₂, _, hs₂, hw₂⟩ => ?_
  refine spec_bind Rely.refl (spec_tell (fun _ => rfl) _ t₂) ?_
  rintro tr₃ r t₃ ⟨hR₃, _, rfl, h₃⟩
  have hs₃ : t₃.streams id = none := hR₃.streams (hs₂ (hlook.streams hstreams))
  -- Without P2P there has never been a waiter.
  have hw₃ : ena = false → t₃.pendingMode id = none := fun hena =>
    hR₃.waiter (hw₂ hena (hlook.waiter hwaiter))
  cases r with
  | error e =>
    refine spec_bind Rely.refl (quiet_cancel_enabled ena t₃) fun tr₄ _ t₄ ⟨h₄, hR₄, hw₄⟩ => ?_
    refine spec_bind Rely.refl (quiet_closeBackend backend t₄) fun tr₅ _ t₅ ⟨h₅, hR₅, hb⟩ => ?_
    have hw₅ : t₅.pendingMode id = none := by
      cases ena with
      | false => exact hR₅.waiter (hR₄.waiter (hw₃ rfl))
      | true => exact hR₅.waiter (hw₄ rfl)
    refine (quiet_closeStream st t₅).mono ?_
    rintro tr₆ _ w' ⟨h₆, hR₆, hclosed⟩
    refine ⟨⟨.error e, ?_⟩, ?_, ?_⟩
    · simp [said_append, h₁, h₂, h₃, h₄, h₅, h₆]
    · exact ⟨hclosed, hR₆.streams (hR₅.streams (hR₄.streams hs₃)), hR₆.waiter hw₅⟩
    · exact hR₆.closedBackends _ hb
  | ok u =>
    refine spec_bind Rely.refl (quiet_wrapStream st t₃) fun tr₄ ref t₄ ⟨h₄, _, hw₄, href, hin⟩ => ?_
    refine spec_bind Rely.refl (quiet_serve ref backend ena t₄) ?_
    rintro tr₅ _ t₅ ⟨h₅, hR₅, hb, hw₅⟩
    have hw₅' : t₅.pendingMode id = none := by
      cases ena with
      | false => exact hR₅.waiter (hw₄ (hw₃ rfl))
      | true => exact hw₅ rfl
    refine (quiet_closeWrapped ref t₅).mono ?_
    rintro tr₆ _ w' ⟨h₆, hR₆, hs₆, hclosed⟩
    refine ⟨⟨.ok u, ?_⟩, ⟨?_, hs₆, hR₆.waiter hw₅'⟩, hR₆.closedBackends _ hb⟩
    · simp [said_append, h₁, h₂, h₃, h₄, h₅, h₆]
    · rw [← hin, ← hR₅.inner ref href]
      exact hclosed (Nat.lt_of_lt_of_le href hR₅.nextRef)

/-- `STREAM_ACCEPT` or `STREAM_REJECT`. -/
def Label.isAnswer : Label ID N ε → Bool
  | .sentAccept _ | .sentReject _ _ => true
  | _ => false

/-- What has been said, and what is left, on every way out. -/
structure Handled (st : ℕ) (id : ID) (ls : List (Label ID N ε)) (w : World ID N G) : Prop where
  answers : ls.countP Label.isAnswer ≤ 1
  accepts : (∃ r, Label.sentAccept r ∈ ls) ↔ ∃ b, Label.handled (.ok b) ∈ ls
  gone : Gone st id w
  backend : ∀ b, Label.handled (.ok b) ∈ ls → b ∈ w.closedBackends

theorem spec_handleIncoming {w : World ID N G} (hstreams : w.streams id = none)
    (hwaiter : w.pendingMode id = none) :
    Spec (Rely id) w (handleIncoming st : Code ID N G ε _) fun tr _ w' =>
      (∀ i, Label.received (.ok (.incoming i)) ∈ said tr → i.streamId = id) →
        Handled st id (said tr) w' := by
  refine spec_bind Rely.refl (spec_tell (fun _ => rfl) _ w) ?_
  rintro tr₁ r t₁ ⟨hR₁, _, rfl, h₁⟩
  have hs₁ := hR₁.streams hstreams
  have hw₁ := hR₁.waiter hwaiter
  -- Whatever has been received, the stream may be closed at once.
  have hclose : Spec (Rely id) t₁ (closeStream st : Code ID N G ε _) fun tr₂ _ w' =>
      Handled st id (said (tr₁ ++ tr₂)) w' := by
    refine (spec_closeStream hs₁ hw₁).mono fun tr₂ _ w' ⟨h₂, hgone⟩ => ?_
    rw [said_append, h₁, h₂]
    exact ⟨by simp [Label.isAnswer], by simp, hgone, by simp⟩
  rcases r with e | (i | _ | type)
  · exact hclose.mono fun _ _ _ h _ => h
  · refine spec_bind Rely.refl (quiet_look _ t₁) ?_
    rintro tr₂ found t₂ ⟨h₂, t, hR, -, hR'⟩
    have hs₂ := (hR.trans hR').streams hs₁
    have hw₂ := (hR.trans hR').waiter hw₁
    cases found with
    | false =>
      refine spec_bind Rely.refl (spec_tell (fun _ => rfl) _ t₂) ?_
      rintro tr₃ _ t₃ ⟨hR₃, c, -, h₃⟩
      refine (spec_closeStream (hR₃.streams hs₂) (hR₃.waiter hw₂)).mono ?_
      rintro tr₄ _ w' ⟨h₄, hgone⟩ -
      rw [said_append, said_append, said_append, h₁, h₂, h₃, h₄]
      exact ⟨by simp [Label.isAnswer], by simp, hgone, by simp⟩
    | true =>
      refine spec_bind Rely.refl (spec_callHandler t₂) ?_
      rintro tr₃ (e | backend) t₃ ⟨hR₃, h₃⟩
      · refine spec_bind Rely.refl (spec_tell (fun _ => rfl) _ t₃) ?_
        rintro tr₄ _ t₄ ⟨hR₄, c, -, h₄⟩
        refine (spec_closeStream (hR₄.streams (hR₃.streams hs₂))
          (hR₄.waiter (hR₃.waiter hw₂))).mono ?_
        rintro tr₅ _ w' ⟨h₅, hgone⟩ -
        rw [said_append, said_append, said_append, said_append, h₁, h₂, h₃, h₄, h₅]
        exact ⟨by simp [Label.isAnswer], by simp, hgone, by simp⟩
      · by_cases hid : i.streamId = id
        · subst hid
          refine (spec_accept backend (hR₃.streams hs₂) (hR₃.waiter hw₂)).mono ?_
          rintro tr₄ _ w' ⟨⟨r, h₄⟩, hgone, hb⟩ -
          rw [said_append, said_append, said_append, h₁, h₂, h₃, h₄]
          exact ⟨by simp [Label.isAnswer], by simp, hgone, by simpa using hb⟩
        · exact fun tr' w' _ _ hids => absurd (hids i (by simp [said_append, h₁])) hid
  · exact hclose.mono fun _ _ _ h _ => h
  · exact hclose.mono fun _ _ _ h _ => h

omit [DecidableEq ID] in
theorem mem_said {tr : List (Event (World ID N G) (Label ID N ε))} {l : Label ID N ε}
    (hl : l.isSilent = false) : l ∈ said tr ↔ ∃ e ∈ tr, e.label = l := by
  rw [said, List.mem_filter, List.mem_map, hl]
  simp

/-- **`handleIncoming` answers once and cleans up on every way out.** -/
theorem incoming_cleans_up (id : ID) (st : ℕ) (w w' : World ID N G)
    (tr : List (Event (World ID N G) (Label ID N ε)))
    (hfree : w.streams id = none ∧ w.pendingMode id = none)
    (hruns : Runs (Rely id) (handleIncoming st) w tr w' ())
    (hid : ∀ e ∈ tr, ∀ i, e.label = .received (.ok (.incoming i)) → i.streamId = id) :
    (tr.map (·.label)).countP Label.isAnswer ≤ 1 ∧
      ((∃ e ∈ tr, ∃ r, e.label = .sentAccept r) ↔ ∃ e ∈ tr, ∃ b, e.label = .handled (.ok b)) ∧
      st ∈ w'.closedStreams ∧
      (∀ e ∈ tr, ∀ b, e.label = .handled (.ok b) → b ∈ w'.closedBackends) ∧
      w'.streams id = none ∧ w'.pendingMode id = none := by
  have hids : ∀ i, Label.received (.ok (.incoming i)) ∈ said tr → i.streamId = id := by
    intro i hi
    obtain ⟨e, he, hl⟩ := (mem_said rfl).mp hi
    exact hid e he i hl
  have h := spec_handleIncoming hfree.1 hfree.2 tr w' () hruns hids
  refine ⟨?_, ?_, h.gone.closed, fun e he b hb => ?_, h.gone.streams, h.gone.waiter⟩
  · have hcount := h.answers
    rw [said, List.countP_filter] at hcount
    refine Nat.le_trans (Nat.le_of_eq (List.countP_congr fun l _ => ?_)) hcount
    cases l <;> simp [Label.isAnswer, Label.isSilent]
  · constructor
    · rintro ⟨e, he, r, hr⟩
      obtain ⟨b, hb⟩ := h.accepts.mp ⟨r, (mem_said rfl).mpr ⟨e, he, hr⟩⟩
      obtain ⟨e', he', hl⟩ := (mem_said rfl).mp hb
      exact ⟨e', he', b, hl⟩
    · rintro ⟨e, he, b, hb⟩
      obtain ⟨r, hr⟩ := h.accepts.mpr ⟨b, (mem_said rfl).mpr ⟨e, he, hb⟩⟩
      obtain ⟨e', he', hl⟩ := (mem_said rfl).mp hr
      exact ⟨e', he', r, hl⟩
  · exact h.backend b ((mem_said rfl).mpr ⟨e, he, hb⟩)

end Whole

/-- A session that exposes one service, without P2P. -/
def exposing : World ℕ Unit Unit where
  handlers _ := true
  p2pEnabled := false
  forwardTLS := false
  streams _ := none
  wrappers _ := ⟨0, 0, false⟩
  nextRef := 0
  pendingMode _ := none
  notices _ := none
  nextChan := 0
  closedStreams := []
  nextBackend := 5
  closedBackends := []
  nextForward := 0
  closedForwards := []

/-- A stream that is accepted and carried. -/
theorem exposing_cleans_up :
    ∃ tr w', Runs (Rely 7) (handleIncoming 3 : Code ℕ Unit Unit Unit Unit) exposing tr w' () ∧
      (∃ e ∈ tr, e.label = .handled (.ok 5)) ∧ 3 ∈ w'.closedStreams ∧ w'.streams 7 = none := by
  have hr : ∀ w : World ℕ Unit Unit, Rely 7 w w := Rely.refl
  obtain ⟨tr, w', hruns, hids, hhandled⟩ : ∃ tr w',
      Runs (Rely 7) (handleIncoming 3 : Code ℕ Unit Unit Unit Unit) exposing tr w' () ∧
        (∀ e ∈ tr, ∀ i, e.label = .received (.ok (.incoming i)) → i.streamId = 7) ∧
        ∃ e ∈ tr, e.label = .handled (.ok 5) := by
    refine ⟨_, _, .act (Except.ok (Frame.incoming (IncomingStream.mk 7 ()))) (hr _) <|
      .act () (hr _) <| .act (Except.ok ()) (hr _) <| .act () (hr _) <|
      .act (Except.ok ()) (hr _) <| .act () (hr _) <| .act () (hr _) <|
      .act () (hr _) <| .act () (hr _) <| .act () (hr _) <| .act () (hr _) <| .act () (hr _) <|
      .act () (hr _) <| .act () (hr _) <| .act () (hr _) <| .act () (hr _) <| .ret (hr _), ?_, ?_⟩
    · simp [exposing]
    · simp [exposing]
  have h := incoming_cleans_up 7 3 exposing w' tr ⟨rfl, rfl⟩ hruns hids
  exact ⟨tr, w', hruns, hhandled, h.2.2.1, h.2.2.2.2.1⟩

end OutRelayAgent.Incoming
