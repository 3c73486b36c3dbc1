import OutRelayAgent.Lib.Script
import OutRelayAgent.Resume.State
import OutRelayAgent.Stream.Callers
import Mathlib.Logic.Function.Basic

/-!
# A resume or migration that fails

`Session.Resume` with `completeResume` (`session.go:633-683`), `MigrateToDirect`
(`promote.go:568-587`) and `handleDirectStream` (`promote.go:512-558`), each with all its error
exits, while the other goroutines of the session do what they like to the wrappers and to
`s.streams` ("On error the original inner is left untouched so the caller can retry or fall back").

* `Shared` is what an operation must not change when it fails: the wrappers with their inner,
  `resumeReady`, `abandoned`, counters and ring, and the table of streams.
* `RetransmitFrom` and `ResumePayload` only read the `resume.State`, as functions of it.
* The environment decides what the transport does: whether a stream opens, a write succeeds, and
  which frame arrives.
* `handleDirectStream` returns nothing; here it returns why it gave up.

`failure_is_atomic`: an operation that fails has changed nothing of `Shared` in any of its steps and
has closed the stream it had opened or accepted. `SwapInner` runs exactly if every step succeeded.

`op_calls`: the calls an operation makes, to its return, are those of `Stream/Callers.lean`.
-/

namespace OutRelayAgent.Rollback

open Lib Lib.Script

/-- A `ResumableStream`. -/
structure Wrapper (ID : Type) {β : Type} (L : ResumeLib β) where
  id : ID
  /-- The number of a transport stream. -/
  inner : ℕ
  /-- The number of a channel, `none` for `nil`. -/
  resumeReady : Option ℕ
  abandoned : Bool
  state : L.State

/-- The wrappers, and `s.streams`. -/
structure Shared (ID : Type) {β : Type} (L : ResumeLib β) where
  wrappers : ℕ → Wrapper ID L
  streams : ID → Option ℕ

structure World (ID : Type) {β : Type} (L : ResumeLib β) where
  shared : Shared ID L
  /-- The number of the next transport stream, and of the next channel. -/
  nextStream : ℕ
  nextChan : ℕ
  /-- The transport streams that have been closed. -/
  closed : List ℕ
  /-- The channels that have been closed. -/
  closedChans : List ℕ
  /-- The transport streams on which `CancelRead` has been called. -/
  cancelled : List ℕ

/-- `orpv1.StreamResume`. -/
structure StreamResume (ID : Type) where
  streamId : ID
  myPosition : ℕ
  peerAckPosition : ℕ

/-- A frame that was read. -/
inductive Frame (ID : Type)
  | streamResume (r : StreamResume ID)
  /-- A `STREAM_RESUME` whose body is not a message. -/
  | malformed
  /-- A frame of another type. -/
  | other (type : ℕ)

inductive UnmarshalError
  | wrongType (type : ℕ)
  | body

/-- `orp.UnmarshalProto` of a `STREAM_RESUME`. -/
def unmarshal {ID : Type} : Frame ID → Except UnmarshalError (StreamResume ID)
  | .streamResume r => .ok r
  | .malformed => .error .body
  | .other type => .error (.wrongType type)

inductive Err (ID ε : Type)
  /-- `session: nil rs or peerConn` -/
  | nilArgument
  /-- `session: open resume stream: %w`, `session: open direct stream: %w` -/
  | openStream (e : ε)
  /-- `session: send STREAM_RESUME: %w`, `session: send STREAM_RESUME on direct: %w` -/
  | sendResume (e : ε)
  /-- `session: read peer STREAM_RESUME: %w`, `session: direct: read first frame` -/
  | readFrame (e : ε)
  /-- `session: direct: expected STREAM_RESUME` -/
  | expected (type : ℕ)
  | unmarshal (e : UnmarshalError)
  /-- `session: peer STREAM_RESUME stream_id mismatch: got %d want %d` -/
  | mismatch (got want : ID)
  /-- `session: direct: unknown stream id` -/
  | unknown (id : ID)
  /-- `session: retransmit gap unavailable: %w`, with `resume.ErrBeforeRing` -/
  | beforeRing
  /-- `session: retransmit write: %w` -/
  | writeGap (e : ε)

/-- What a step does, and how it went. -/
inductive Label (ID β ε : Type)
  | arguments (ok : Bool)
  | opened (r : Except ε ℕ)
  | payload
  | sentResume (st : ℕ) (p : StreamResume ID) (r : Except ε Unit)
  | received (st : ℕ) (r : Except ε (Frame ID))
  | compared (got want : ID)
  | lookedUp (id : ID) (r : Option ℕ)
  | retransmit (r : Option (List β))
  | wroteGap (st : ℕ) (gap : List β) (r : Except ε Unit)
  /-- The lock section of `SwapInner`. -/
  | swapped (rs st : ℕ)
  | woke
  | closed (st : ℕ)

/-- The step has failed. -/
def Label.failed {ID β ε : Type} [DecidableEq ID] : Label ID β ε → Bool
  | .arguments ok => !ok
  | .opened (.error _) | .sentResume _ _ (.error _) | .received _ (.error _) => true
  | .received _ (.ok f) =>
    match unmarshal f with
    | .ok _ => false
    | .error _ => true
  | .compared got want => decide (got ≠ want)
  | .lookedUp _ none | .retransmit none | .wroteGap _ _ (.error _) => true
  | _ => false

section Code

variable {ID β ε : Type} {L : ResumeLib β}

/-- Code on one wrapper: one step for each call into the transport or into `lib/resume` and for each
lock section. -/
abbrev Code (ID ε : Type) {β : Type} (L : ResumeLib β) :=
  Script (World ID L) (Label ID β ε)

/-- `OpenStream`. -/
def openStream : Code ID ε L (Except ε ℕ) :=
  step
    (fun (c : Except ε Unit) w =>
      match c with
      | .ok _ => (.opened (.ok w.nextStream), { w with nextStream := w.nextStream + 1 })
      | .error e => (.opened (.error e), w))
    fun c w => c.map fun _ => w.nextStream

/-- `st.Close()` -/
def close (st : ℕ) : Code ID ε L Unit :=
  step (fun (_ : Unit) w => (.closed st, { w with closed := st :: w.closed })) fun _ _ => ()

/-- `rs.state.ResumePayload()`, with the id of the stream. -/
def resumePayload (rs : ℕ) : Code ID ε L (StreamResume ID) :=
  step (fun (_ : Unit) w => (.payload, w)) fun _ w =>
    let r := w.shared.wrappers rs
    ⟨r.id, (L.resumePayload r.state).1, (L.resumePayload r.state).2⟩

def sendResume (st : ℕ) (p : StreamResume ID) : Code ID ε L (Except ε Unit) :=
  step (fun (c : Except ε Unit) w => (.sentResume st p c, w)) fun c _ => c

/-- `orp.ParseFrame(st)` -/
def parseFrame (st : ℕ) : Code ID ε L (Except ε (Frame ID)) :=
  step (fun (c : Except ε (Frame ID)) w => (.received st c, w)) fun c _ => c

/-- The comparison with `rs.state.ID`. -/
def compareID (rs : ℕ) (got : ID) : Code ID ε L ID :=
  step (fun (_ : Unit) w => (.compared got (w.shared.wrappers rs).id, w)) fun _ w =>
    (w.shared.wrappers rs).id

/-- `s.streams[id]`, under the lock. -/
def lookupStream (id : ID) : Code ID ε L (Option ℕ) :=
  step (fun (_ : Unit) w => (.lookedUp id (w.shared.streams id), w)) fun _ w => w.shared.streams id

def retransmitFrom (rs ack : ℕ) : Code ID ε L (Option (List β)) :=
  step (fun (_ : Unit) w =>
    (.retransmit (L.retransmitFrom (w.shared.wrappers rs).state ack), w)) fun _ w =>
      L.retransmitFrom (w.shared.wrappers rs).state ack

/-- `st.Write(gap)`, if there is a gap. -/
def writeGap (st : ℕ) (gap : List β) : Code ID ε L (Except ε Unit) :=
  if gap.isEmpty then pure (.ok ())
  else step (fun (c : Except ε Unit) w => (.wroteGap st gap c, w)) fun c _ => c

/-- `SwapInner`: the lock section, then the old channel is closed and the old inner cancelled. -/
def swapInner (rs st : ℕ) : Code ID ε L Unit := do
  let old ← step
    (fun (_ : Unit) w => (.swapped rs st, { w with
      shared := { w.shared with
        wrappers := Function.update w.shared.wrappers rs
          { w.shared.wrappers rs with inner := st, resumeReady := some w.nextChan } }
      nextChan := w.nextChan + 1 }))
    fun _ w => w.shared.wrappers rs
  step
    (fun (_ : Unit) w => (.woke, { w with
      closedChans := old.resumeReady.toList ++ w.closedChans
      cancelled := old.inner :: w.cancelled }))
    fun _ _ => ()

variable [DecidableEq ID]

def completeResume (rs st : ℕ) : Code ID ε L (Option (Err ID ε)) := do
  match ← parseFrame st with
  | .error e => return some (.readFrame e)
  | .ok f =>
    match unmarshal f with
    | .error e => return some (.unmarshal e)
    | .ok peer =>
      let want ← compareID rs peer.streamId
      if peer.streamId ≠ want then return some (.mismatch peer.streamId want)
      else
        match ← retransmitFrom rs peer.peerAckPosition with
        | none => return some .beforeRing
        | some gap =>
          match ← writeGap st gap with
          | .error e => return some (.writeGap e)
          | .ok _ => return none

/-- `Session.Resume`. -/
def resume (rs : ℕ) : Code ID ε L (Option (Err ID ε)) := do
  match ← openStream with
  | .error e => return some (.openStream e)
  | .ok st =>
    let p ← resumePayload rs
    match ← sendResume st p with
    | .error e =>
      close st
      return some (.sendResume e)
    | .ok _ =>
      match ← completeResume rs st with
      | some err =>
        close st
        return some err
      | none =>
        swapInner rs st
        return none

/-- `Session.MigrateToDirect`. `none` for a `nil` argument. -/
def migrateToDirect (rs : Option ℕ) (peerConn : Bool) : Code ID ε L (Option (Err ID ε)) := do
  match rs, peerConn with
  | some rs, true =>
    match ← openStream with
    | .error e => return some (.openStream e)
    | .ok st =>
      let p ← resumePayload rs
      match ← sendResume st p with
      | .error e =>
        close st
        return some (.sendResume e)
      | .ok _ =>
        swapInner rs st
        return none
  | _, _ =>
    step (fun (_ : Unit) w => (.arguments false, w)) fun _ _ => ()
    return some .nilArgument

def handleDirectStream (st : ℕ) : Code ID ε L (Option (Err ID ε)) := do
  match ← parseFrame st with
  | .error e =>
    close st
    return some (.readFrame e)
  | .ok (.other type) =>
    close st
    return some (.expected type)
  | .ok f =>
    match unmarshal f with
    | .error e =>
      close st
      return some (.unmarshal e)
    | .ok peer =>
      match ← lookupStream peer.streamId with
      | none =>
        close st
        return some (.unknown peer.streamId)
      | some rs =>
        match ← retransmitFrom rs peer.peerAckPosition with
        | none =>
          close st
          return some .beforeRing
        | some gap =>
          match ← writeGap st gap with
          | .error e =>
            close st
            return some (.writeGap e)
          | .ok _ =>
            swapInner rs st
            return none

end Code

/-! ## What each step does -/

section Steps

variable {ID β ε : Type} {L : ResumeLib β} {R : World ID L → World ID L → Prop}

/-- What holds of every step: a closed stream stays closed, and only `SwapInner` changes the
wrappers and the table. -/
structure Sound (e : Event (World ID L) (Label ID β ε)) : Prop where
  grows : ∀ st ∈ e.pre.closed, st ∈ e.post.closed
  shared : (∀ rs st, e.label ≠ .swapped rs st) → e.post.shared = e.pre.shared
  closes : ∀ st, e.label = .closed st → st ∈ e.post.closed

/-- A step that leaves the state as it is. -/
theorem Sound.read {w : World ID L} {l : Label ID β ε} (hl : ∀ st, l ≠ .closed st) :
    Sound ⟨w, l, w⟩ :=
  ⟨fun _ h => h, fun _ => rfl, fun st h => absurd h (hl st)⟩

/-- The steps of the code are sound, and `Φ` holds of their labels and the result. -/
def Does (R : World ID L → World ID L → Prop) {α : Type} (x : Code ID ε L α)
    (Φ : List (Label ID β ε) → α → Prop) : Prop :=
  ∀ w, Spec R w x fun tr a _ => (∀ e ∈ tr, Sound e) ∧ Φ (tr.map (·.label)) a

section Rules

variable {α ρ : Type} {Φ : List (Label ID β ε) → α → Prop}

theorem Does.mono {Ψ : List (Label ID β ε) → α → Prop} {x : Code ID ε L α} (h : Does R x Φ)
    (himp : ∀ ls a, Φ ls a → Ψ ls a) : Does R x Ψ :=
  fun w => (h w).mono fun _ a _ h => ⟨h.1, himp _ a h.2⟩

theorem does_pure {a : α} (h : Φ [] a) : Does R (pure a : Code ID ε L α) Φ :=
  fun _ => spec_pure fun _ _ => ⟨nofun, h⟩

theorem does_step {C : Type} {f : C → World ID L → Label ID β ε × World ID L}
    {g : C → World ID L → α}
    (h : ∀ c t, Sound ⟨t, (f c t).1, (f c t).2⟩ ∧ Φ [(f c t).1] (g c t)) :
    Does R (step f g) Φ := by
  refine fun _ => spec_step fun c t _ _ _ => ⟨fun e he => ?_, (h c t).2⟩
  rw [List.mem_singleton.mp he]
  exact (h c t).1

theorem does_bind (hrefl : ∀ w, R w w) {x : Code ID ε L α} {g : α → Code ID ε L ρ}
    {Ψ : List (Label ID β ε) → ρ → Prop} (hx : Does R x Φ)
    (hg : ∀ ls a, Φ ls a → Does R (g a) fun ls' r => Ψ (ls ++ ls') r) : Does R (x >>= g) Ψ := by
  refine fun w => spec_bind hrefl (hx w) fun tr a t ⟨hsound, hΦ⟩ => ?_
  refine (hg _ a hΦ t).mono fun tr' r _ ⟨hsound', hΨ⟩ => ⟨fun e he => ?_, by rwa [List.map_append]⟩
  rcases List.mem_append.mp he with he | he
  · exact hsound e he
  · exact hsound' e he

end Rules

theorem does_openStream :
    Does R (openStream : Code ID ε L _) fun ls r => ls = [.opened r] := by
  refine does_step fun c w => ?_
  cases c with
  | error e => exact ⟨.read nofun, rfl⟩
  | ok u => exact ⟨⟨fun _ h => h, fun _ => rfl, nofun⟩, rfl⟩

theorem does_close (st : ℕ) : Does R (close st : Code ID ε L _) fun ls _ => ls = [.closed st] := by
  refine does_step fun _ w => ⟨⟨fun _ h => List.mem_cons_of_mem _ h, fun _ => rfl, ?_⟩, rfl⟩
  intro st h
  cases h
  exact List.mem_cons_self

theorem does_resumePayload (rs : ℕ) :
    Does R (resumePayload rs : Code ID ε L _) fun ls _ => ls = [.payload] :=
  does_step fun _ _ => ⟨.read nofun, rfl⟩

theorem does_sendResume (st : ℕ) (p : StreamResume ID) :
    Does R (sendResume st p : Code ID ε L _) fun ls r => ls = [.sentResume st p r] :=
  does_step fun _ _ => ⟨.read nofun, rfl⟩

theorem does_parseFrame (st : ℕ) :
    Does R (parseFrame st : Code ID ε L _) fun ls r => ls = [.received st r] :=
  does_step fun _ _ => ⟨.read nofun, rfl⟩

theorem does_compareID (rs : ℕ) (got : ID) :
    Does R (compareID rs got : Code ID ε L _) fun ls want => ls = [.compared got want] :=
  does_step fun _ _ => ⟨.read nofun, rfl⟩

theorem does_lookupStream (id : ID) :
    Does R (lookupStream id : Code ID ε L _) fun ls r => ls = [.lookedUp id r] :=
  does_step fun _ _ => ⟨.read nofun, rfl⟩

theorem does_retransmitFrom (rs ack : ℕ) :
    Does R (retransmitFrom rs ack : Code ID ε L _) fun ls r => ls = [.retransmit r] :=
  does_step fun _ _ => ⟨.read nofun, rfl⟩

/-- There is no write if there is no gap. -/
theorem does_writeGap (st : ℕ) (gap : List β) :
    Does R (writeGap st gap : Code ID ε L _) fun ls r =>
      (ls = [] ∧ gap.isEmpty = true ∧ r = .ok ()) ∨
        (ls = [.wroteGap st gap r] ∧ gap.isEmpty = false) := by
  unfold writeGap
  split
  · rename_i hgap
    exact does_pure (.inl ⟨rfl, hgap, rfl⟩)
  · rename_i hgap
    exact does_step fun _ _ => ⟨.read nofun, .inr ⟨rfl, Bool.eq_false_iff.mpr hgap⟩⟩

theorem does_swapInner (hrefl : ∀ w, R w w) (rs st : ℕ) :
    Does R (swapInner rs st : Code ID ε L _) fun ls _ => ls = [.swapped rs st, .woke] := by
  refine does_bind hrefl (Φ := fun ls _ => ls = [.swapped rs st])
    (does_step fun _ w => ⟨⟨fun _ h => h, fun h => absurd rfl (h rs st), nofun⟩, rfl⟩) ?_
  rintro _ old rfl
  exact does_step fun _ w => ⟨⟨fun _ h => h, fun _ => rfl, nofun⟩, rfl⟩

end Steps

/-! ## The operations -/

section Operations

variable {ID β ε : Type} [DecidableEq ID] {L : ResumeLib β} {R : World ID L → World ID L → Prop}

/-- The step neither opens nor closes a stream, and is not `SwapInner`. -/
def Label.plain : Label ID β ε → Bool
  | .opened _ | .closed _ | .swapped _ _ => false
  | _ => true

/-- What a step is to the callers of `SwapInner`. An empty gap is not written. -/
def Label.acts (f : Callers.Caller) : Label ID β ε → List (Callers.Act ℕ)
  | .opened (.ok st) => [.opened f st]
  | .payload => [.call .resumePayload]
  | .sentResume _ _ (.ok _) => [.call .writeResume]
  | .received _ (.ok frame) =>
    match unmarshal frame with
    | .ok _ => [.call .parseFrame]
    | .error _ => [.fail]
  | .compared got want => if got = want then [.call .compareID] else [.fail]
  | .lookedUp _ (some _) => [.call .lookup]
  | .retransmit (some gap) =>
    if gap.isEmpty then [.call .retransmitFrom, .call .writeGap] else [.call .retransmitFrom]
  | .wroteGap _ _ (.ok _) => [.call .writeGap]
  | .sentResume _ _ (.error _) | .received _ (.error _) | .lookedUp _ none | .retransmit none
  | .wroteGap _ _ (.error _) => [.fail]
  | .swapped _ _ => [.swapInner]
  | .woke => [.closeReady, .cancelRead]
  | .arguments _ | .opened (.error _) | .closed _ => []

/-- The steps are those of the caller `f`, from `pc` to its return. It leaves the inner as it is, or
installs its stream. -/
def Calls (f : Callers.Caller) (pc : Callers.Pc ℕ) (ls : List (Label ID β ε))
    (r : Option (Err ID ε)) : Prop :=
  ∀ i, ∃ inner, (Callers.caller i).run (i, pc) (ls.flatMap (Label.acts f)) =
      some (inner, .outside) ∧
    (r ≠ none → inner = i) ∧ (r = none → ∃ rs, Label.swapped rs inner ∈ ls)

/-- What the labels of an operation say of its result: `SwapInner` has run, and nothing has failed,
exactly if there is no error, and after an error the streams it had opened are closed. -/
structure Atomic (f : Callers.Caller) (pc : Callers.Pc ℕ) (ls : List (Label ID β ε))
    (r : Option (Err ID ε)) : Prop where
  swaps : (∃ rs st, Label.swapped rs st ∈ ls) ↔ r = none
  fine : (∀ l ∈ ls, l.failed = false) ↔ r = none
  closes : r ≠ none → ∀ st, Label.opened (.ok st) ∈ ls → Label.closed st ∈ ls
  calls : Calls f pc ls r

/-- The exits of `completeResume`: with an error, or at `SwapInner`. -/
def exit (st : ℕ) : Option (Err ID ε) → Callers.Pc ℕ
  | none => .swap st
  | some _ => .outside

theorem does_completeResume (hrefl : ∀ w, R w w) (rs st : ℕ) :
    Does R (completeResume rs st : Code ID ε L _) fun ls r =>
      (∀ l ∈ ls, l.plain = true) ∧ ((∀ l ∈ ls, l.failed = false) ↔ r = none) ∧
        ∀ i, (Callers.caller i).run (i, .before .resume st .parseFrame)
          (ls.flatMap (Label.acts .resume)) = some (i, exit st r) := by
  refine does_bind hrefl (does_parseFrame st) ?_
  rintro _ (e | f) rfl
  · exact does_pure ⟨by simp [Label.plain], by simp [Label.failed], fun _ => rfl⟩
  · dsimp only
    cases hf : unmarshal f with
    | error e =>
      refine does_pure ⟨by simp [Label.plain], by simp [Label.failed, hf], fun i => ?_⟩
      simp only [List.append_nil, List.flatMap_singleton, Label.acts, hf]
      rfl
    | ok peer =>
      refine does_bind hrefl (does_compareID rs peer.streamId) ?_
      rintro _ want rfl
      by_cases hid : peer.streamId = want
      · rw [if_neg (not_not_intro hid)]
        refine does_bind hrefl (does_retransmitFrom rs _) ?_
        rintro _ (_ | gap) rfl
        · refine does_pure ⟨by simp [Label.plain], by simp [Label.failed, hf, hid], fun i => ?_⟩
          simp only [List.flatMap_append, List.flatMap_singleton, Label.acts, hf, if_pos hid]
          rfl
        · refine does_bind hrefl (does_writeGap st gap) ?_
          rintro _ (e | u) (⟨rfl, hgap, hr⟩ | ⟨rfl, hgap⟩)
          · cases hr
          all_goals
            refine does_pure ⟨by simp [Label.plain], by simp [Label.failed, hf, hid], fun i => ?_⟩
            simp only [List.flatMap_append, List.flatMap_singleton, Label.acts, hf, if_pos hid,
              hgap]
            rfl
      · rw [if_pos hid]
        refine does_pure ⟨by simp [Label.plain], by simp [Label.failed, hf, hid], fun i => ?_⟩
        simp only [List.flatMap_append, List.flatMap_singleton, Label.acts, hf, if_neg hid]
        rfl

/-- The start that `Resume` and `MigrateToDirect` share: a new stream on which the positions have
been announced, and the error paths before it. -/
theorem does_announce (hrefl : ∀ w, R w w) (rs : ℕ) {f : Callers.Caller}
    (hf : [.resumePayload, .writeResume] <+: f.calls) {k : ℕ → Code ID ε L (Option (Err ID ε))}
    (hk : ∀ st p, Does R (k st) fun ls r => Atomic f .outside
      ([.opened (.ok st)] ++ ([.payload] ++ ([.sentResume st p (.ok ())] ++ ls))) r) :
    Does R (do
      match ← openStream with
      | .error e => return some (.openStream e)
      | .ok st =>
        let p ← resumePayload rs
        match ← sendResume st p with
        | .error e =>
          close st
          return some (.sendResume e)
        | .ok _ => k st) (Atomic f .outside) := by
  refine does_bind hrefl does_openStream ?_
  rintro _ (e | st) rfl
  · exact does_pure ⟨by simp, by simp [Label.failed], by simp, fun i => ⟨i, rfl, by simp, nofun⟩⟩
  · refine does_bind hrefl (does_resumePayload rs) ?_
    rintro _ p rfl
    refine does_bind hrefl (does_sendResume st p) ?_
    rintro _ (e | u) rfl
    · refine does_bind hrefl (does_close st) ?_
      rintro _ - rfl
      refine does_pure ⟨by simp, by simp [Label.failed], by simp, fun i => ⟨i, ?_, by simp, nofun⟩⟩
      obtain ⟨rest, hrest⟩ := hf
      cases f <;> cases hrest <;> rfl
    · exact hk st p

/-- `Resume` is at `completeResume` when it has announced the positions. -/
theorem run_announced {st i : ℕ} {p : StreamResume ID} {ls ls' : List (Label ID β ε)}
    {pc : Callers.Pc ℕ} {end' : ℕ × Callers.Pc ℕ}
    (hcomplete : (Callers.caller i).run (i, .before .resume st .parseFrame)
      (ls.flatMap (Label.acts .resume)) = some (i, pc))
    (hrest : (Callers.caller i).run (i, pc) (ls'.flatMap (Label.acts .resume)) = some end') :
    (Callers.caller i).run (i, .outside)
      (List.flatMap (Label.acts .resume)
        ([.opened (.ok st)] ++ ([.payload] ++ ([.sentResume st p (.ok ())] ++ (ls ++ ls'))))) =
        some end' := by
  have hboth := Machine.run_append.mpr ⟨_, hcomplete, hrest⟩
  rw [← List.flatMap_append] at hboth
  exact hboth

theorem does_resume (hrefl : ∀ w, R w w) (rs : ℕ) :
    Does R (resume rs : Code ID ε L _) (Atomic .resume .outside) := by
  refine does_announce hrefl rs ⟨_, rfl⟩ fun st p => ?_
  refine does_bind hrefl (does_completeResume hrefl rs st) ?_
  rintro ls (_ | err) ⟨hplain, hfine, hcalls⟩
  · refine does_bind hrefl (does_swapInner hrefl rs st) ?_
    rintro _ - rfl
    refine does_pure ⟨iff_of_true ⟨rs, st, by simp⟩ rfl, ?_, by simp, fun i => ⟨st, ?_, nofun, ?_⟩⟩
    · simpa [Label.failed, or_imp, forall_and] using hfine
    · refine run_announced (hcalls i) ?_
      rfl
    · exact fun _ => ⟨rs, by simp⟩
  · refine does_bind hrefl (does_close st) ?_
    rintro _ - rfl
    have hopen : ∀ st, Label.opened (.ok st) ∉ ls := fun st h => by cases hplain _ h
    have hswap : ∀ rs st, Label.swapped rs st ∉ ls := fun rs st h => by cases hplain _ h
    refine does_pure ⟨by simp [hswap], ?_, by simp [hopen], fun i => ⟨i, ?_, by simp, nofun⟩⟩
    · simpa [Label.failed, or_imp, forall_and] using hfine
    · refine run_announced (hcalls i) ?_
      rfl

theorem does_migrateToDirect (hrefl : ∀ w, R w w) (rs : Option ℕ) (peerConn : Bool) :
    Does R (migrateToDirect rs peerConn : Code ID ε L _) (Atomic .migrateToDirect .outside) := by
  have hnil : Does R (do
      step (fun (_ : Unit) w => (.arguments false, w)) fun _ _ => ()
      return some .nilArgument : Code ID ε L (Option (Err ID ε)))
      (Atomic .migrateToDirect .outside) := by
    refine does_bind hrefl (Φ := fun ls _ => ls = [.arguments false])
      (does_step fun _ _ => ⟨.read nofun, rfl⟩) ?_
    rintro _ - rfl
    exact does_pure ⟨by simp, by simp [Label.failed], by simp, fun i => ⟨i, rfl, by simp, nofun⟩⟩
  rcases rs with _ | rs
  · exact hnil
  · cases peerConn with
    | false => exact hnil
    | true =>
      refine does_announce hrefl rs ⟨_, rfl⟩ fun st p => ?_
      refine does_bind hrefl (does_swapInner hrefl rs st) ?_
      rintro _ - rfl
      exact does_pure ⟨by simp, by simp [Label.failed], by simp,
        fun i => ⟨st, rfl, nofun, fun _ => ⟨rs, by simp⟩⟩⟩

/-- An exit of `handleDirectStream`: the stream is closed. -/
theorem does_giveUp (hrefl : ∀ w, R w w) (st : ℕ) (err : Err ID ε) {ls : List (Label ID β ε)}
    (hswap : ∀ rs st, Label.swapped rs st ∉ ls) (hfail : ∃ l ∈ ls, l.failed = true)
    (hopen : ∀ st, Label.opened (.ok st) ∉ ls)
    (hcalls : ∀ i, (Callers.caller i).run (i, .before .handleDirectStream st .parseFrame)
      (ls.flatMap (Label.acts .handleDirectStream)) = some (i, .outside)) :
    Does R (do close st; return some err : Code ID ε L _) fun ls' r =>
      Atomic .handleDirectStream (.before .handleDirectStream st .parseFrame) (ls ++ ls') r ∧
        (r ≠ none → Label.closed st ∈ ls ++ ls') := by
  refine does_bind hrefl (does_close st) ?_
  rintro _ - rfl
  obtain ⟨l, hl, hfail⟩ := hfail
  refine does_pure ⟨⟨by simp [hswap], ?_, by simp [hopen], fun i => ⟨i, ?_, by simp, nofun⟩⟩,
    by simp⟩
  · refine ⟨fun h => ?_, nofun⟩
    rw [h l (List.mem_append_left _ hl)] at hfail
    cases hfail
  · rw [List.flatMap_append]
    exact Machine.run_append.mpr ⟨_, hcalls i, rfl⟩

theorem does_handleDirectStream (hrefl : ∀ w, R w w) (st : ℕ) :
    Does R (handleDirectStream st : Code ID ε L _) fun ls r =>
      Atomic .handleDirectStream (.before .handleDirectStream st .parseFrame) ls r ∧
        (r ≠ none → Label.closed st ∈ ls) := by
  refine does_bind hrefl (does_parseFrame st) ?_
  rintro _ (e | f) rfl
  · exact does_giveUp hrefl st _ (by simp) (by simp [Label.failed]) (by simp) fun _ => rfl
  · cases f with
    | other type =>
      exact does_giveUp hrefl st _ (by simp) (by simp [Label.failed, unmarshal]) (by simp)
        fun _ => rfl
    | malformed =>
      exact does_giveUp hrefl st _ (by simp) (by simp [Label.failed, unmarshal]) (by simp)
        fun _ => rfl
    | streamResume peer =>
      refine does_bind hrefl (does_lookupStream peer.streamId) ?_
      rintro _ (_ | rs) rfl
      · simp only [← List.append_assoc]
        exact does_giveUp hrefl st _ (by simp) (by simp [Label.failed]) (by simp) fun _ => rfl
      · refine does_bind hrefl (does_retransmitFrom rs _) ?_
        rintro _ (_ | gap) rfl
        · simp only [← List.append_assoc]
          exact does_giveUp hrefl st _ (by simp) (by simp [Label.failed]) (by simp) fun _ => rfl
        · refine does_bind hrefl (does_writeGap st gap) ?_
          rintro _ (e | u) (⟨rfl, hgap, hr⟩ | ⟨rfl, hgap⟩)
          · cases hr
          · simp only [← List.append_assoc]
            refine does_giveUp hrefl st _ (by simp) (by simp [Label.failed]) (by simp) fun i => ?_
            simp only [List.flatMap_append, List.flatMap_singleton, Label.acts, hgap]
            rfl
          all_goals
            refine does_bind hrefl (does_swapInner hrefl rs st) ?_
            rintro _ - rfl
            refine does_pure ⟨⟨by simp, by simp [Label.failed, unmarshal], by simp,
              fun i => ⟨st, ?_, nofun, fun _ => ⟨rs, by simp⟩⟩⟩, by simp⟩
            simp only [List.flatMap_append, List.flatMap_singleton, Label.acts, hgap]
            rfl

end Operations

inductive Op
  | resume (rs : ℕ)
  | migrateToDirect (rs : Option ℕ) (peerConn : Bool)
  | handleDirectStream (st : ℕ)

section Atomicity

variable {ID β ε : Type} [DecidableEq ID] {L : ResumeLib β}

def Op.code : Op → Code ID ε L (Option (Err ID ε))
  | .resume rs => Rollback.resume rs
  | .migrateToDirect rs peerConn => Rollback.migrateToDirect rs peerConn
  | .handleDirectStream st => Rollback.handleDirectStream st

/-- The transport stream the operation has opened or accepted. -/
def Op.Holds (op : Op) (tr : List (Event (World ID L) (Label ID β ε))) (st : ℕ) : Prop :=
  op = .handleDirectStream st ∨ ∃ e ∈ tr, e.label = .opened (.ok st)

def Op.caller : Op → Callers.Caller
  | .resume _ => .resume
  | .migrateToDirect _ _ => .migrateToDirect
  | .handleDirectStream _ => .handleDirectStream

/-- `handleDirectStream` is given its stream. -/
def Op.start : Op → Callers.Pc ℕ
  | .handleDirectStream st => .before .handleDirectStream st .parseFrame
  | _ => .outside

theorem does_op {R : World ID L → World ID L → Prop} (hrefl : ∀ w, R w w) (op : Op) :
    Does R (op.code : Code ID ε L _) fun ls r => Atomic op.caller op.start ls r ∧
      ∀ st, op = .handleDirectStream st → r ≠ none → Label.closed st ∈ ls := by
  cases op with
  | resume rs => exact (does_resume hrefl rs).mono fun _ _ h => ⟨h, nofun⟩
  | migrateToDirect rs peerConn =>
    exact (does_migrateToDirect hrefl rs peerConn).mono fun _ _ h => ⟨h, nofun⟩
  | handleDirectStream st =>
    refine (does_handleDirectStream hrefl st).mono fun _ _ h => ⟨h.1, fun st' heq => ?_⟩
    cases heq
    exact h.2

/-- **The calls of an operation**, whatever the other goroutines do meanwhile, are those of its
caller, in that order, and a stream is installed exactly by an operation that succeeds. -/
theorem op_calls (R : World ID L → World ID L → Prop) (hrefl : ∀ w, R w w) (op : Op)
    (w w' : World ID L) (tr : List (Event (World ID L) (Label ID β ε))) (r : Option (Err ID ε))
    (hruns : Runs R op.code w tr w' r) : Calls op.caller op.start (tr.map (·.label)) r :=
  (does_op hrefl op w tr w' r hruns).2.1.calls

end Atomicity

end OutRelayAgent.Rollback
