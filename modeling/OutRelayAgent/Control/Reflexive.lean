import OutRelayAgent.Lib.Machine
import OutRelayAgent.Lib.Framing

/-!
# The server-reflexive query and the control stream

Model of `QueryServerReflexive` (`candidate.go:96-167`), of the check in front of it
(`promote.go:458-476`) and of what follows it in `main` (`main.go:262-298`): `EnableP2P`, which
starts `controlReader` (`promote.go:32-47`, `76-153`).

* **The query** is written to the control stream, and a goroutine is started that reads one frame
  from it. The call waits for the goroutine's result, for a timer, or for its context, and returns
  with whichever comes first. When more than one is there, any of them may be chosen.
* **`ParseFrame`** takes bytes off the stream until it has a frame. It is outside this repository,
  as is the format of frames, which is a parameter. It fails when the stream does.
* **`main`** goes on after a failed query. It calls `EnableP2P` after the query has returned;
  a query after `EnableP2P` is refused.
* **The relay** sends any frames at any time.

Nothing stops the goroutine when the call returns because of the timer or the context. It goes on
reading, and takes the next frame that arrives.

* `query_leaves_ctrl`: when the call has returned, no goroutine of it reads the control stream, and
  all frames the relay has sent since are dispatched by `controlReader` or whole on the stream, in
  every run in which the timer and the context are chosen only after the goroutine has its result
  (`inTime`). A call that returns before that leaves its goroutine reading.
* `takes_next_frame`: a query times out, and its goroutine takes a frame sent after `EnableP2P`.
-/

namespace OutRelayAgent.Reflexive

open Lib

/-- A control frame, as far as the query looks into it. -/
inductive Frame
  | observedAddrResp (requestId : ℕ) (ip : String) (port : ℕ)
  /-- `OBSERVED_ADDR_RESP` with a payload that does not decode. -/
  | garbledResp
  | other (type : ℕ)
  deriving DecidableEq

structure Candidate (Addr : Type) where
  kind : String
  ip : Addr
  port : ℕ
  priority : ℕ

/-- The errors, in the order in which they can occur. -/
inductive Failure
  /-- `session: QueryServerReflexive must run before EnableP2P`. -/
  | afterEnableP2P
  /-- `candidate: send query`. -/
  | sendQuery
  /-- `candidate: read response`. -/
  | readResponse
  /-- `candidate: unexpected frame`. -/
  | unexpectedFrame (type : ℕ)
  /-- The error of `UnmarshalProto`. -/
  | unmarshal
  /-- `candidate: response id mismatch`. -/
  | idMismatch
  /-- `candidate: parse ip`. -/
  | parseIp (ip : String)
  /-- `candidate: server-reflexive query timed out`. -/
  | timedOut
  /-- `ctx.Err()`. -/
  | ctx

/-- What is outside this repository, and the id the query is sent with. -/
structure Env (β Addr : Type) where
  framing : Framing β Frame
  parseAddr : String → Option Addr
  requestId : ℕ

variable {β Addr : Type}

/-- What the goroutine makes of the frame it has read. -/
def result (env : Env β Addr) : Frame → Except Failure (Candidate Addr)
  | .observedAddrResp requestId ip port =>
    if requestId ≠ env.requestId then .error .idMismatch
    else
      match env.parseAddr ip with
      | none => .error (.parseIp ip)
      | some addr => .ok ⟨"srflx", addr, port % 65536, 20⟩
  | .garbledResp => .error .unmarshal
  | .other type => .error (.unexpectedFrame type)

inductive Call (Addr : Type)
  | before
  /-- In the `select`. -/
  | waiting
  | returned (r : Except Failure (Candidate Addr))

/-- `controlReader`; `parsing got` is inside `ParseFrame`. -/
inductive Reader (β : Type)
  | off
  | parsing (got : List β)
  | stopped

structure World (β Addr : Type) where
  /-- What the relay has sent and nobody has read. -/
  input : List β
  broken : Bool
  call : Call Addr
  /-- The goroutine, with what its `ParseFrame` has taken. -/
  goroutine : Option (List β)
  done : Option (Except Failure (Candidate Addr))
  reader : Reader β
  dispatched : List Frame
  /-- The frames the relay has sent since the call returned; no step reads it. -/
  since : List Frame

inductive Act
  /-- `QueryServerReflexive` is called, and its write succeeds or fails. -/
  | call (written : Bool)
  | goroutine
  | receive
  | timeout
  | cancel
  | enableP2P
  /-- A step of `controlReader`; when it has dispatched a frame, `ctx` is done or not. -/
  | reader (ctxDone : Bool)
  | send (f : Frame)
  | fail

/-- The next step of a `ParseFrame` that has taken `got`: what is left on the stream, what has been
taken, and what that is. -/
def parseMore (env : Env β Addr) (w : World β Addr) (got : List β) :
    Option (List β × List β × Parsed Frame) :=
  if w.broken then some (w.input, got, .bad)
  else
    match w.input with
    | [] => none
    | b :: input => some (input, got ++ [b], env.framing.parse (got ++ [b]))

def Call.isReturned : Call Addr → Bool
  | .returned _ => true
  | _ => false

def step (env : Env β Addr) (w : World β Addr) : Act → Option (World β Addr)
  | .call written =>
    match w.call, w.reader with
    | .before, .off =>
      if written then some { w with call := .waiting, goroutine := some [] }
      else some { w with call := .returned (.error .sendQuery) }
    | .before, _ => some { w with call := .returned (.error .afterEnableP2P) }
    | _, _ => none
  | .goroutine =>
    match w.goroutine with
    | none => none
    | some got =>
      match parseMore env w got with
      | none => none
      | some (input, got, .more) => some { w with input := input, goroutine := some got }
      | some (input, _, .frame f) =>
        some { w with input := input, goroutine := none, done := some (result env f) }
      | some (input, _, .bad) =>
        some { w with input := input, goroutine := none, done := some (.error .readResponse) }
  | .receive =>
    match w.call, w.done with
    | .waiting, some r => some { w with call := .returned r, done := none }
    | _, _ => none
  | .timeout =>
    match w.call with
    | .waiting => some { w with call := .returned (.error .timedOut) }
    | _ => none
  | .cancel =>
    match w.call with
    | .waiting => some { w with call := .returned (.error .ctx) }
    | _ => none
  | .enableP2P =>
    -- `main` is not there before the call has returned.
    match w.call, w.reader with
    | .waiting, _ => none
    | _, .off => some { w with reader := .parsing [] }
    | _, _ => some w
  | .reader ctxDone =>
    match w.reader with
    | .parsing got =>
      match parseMore env w got with
      | none => none
      | some (input, got, .more) => some { w with input := input, reader := .parsing got }
      | some (input, _, .frame f) =>
        some { w with
          input := input
          reader := if ctxDone then .stopped else .parsing []
          dispatched := w.dispatched ++ [f] }
      | some (input, _, .bad) => some { w with input := input, reader := .stopped }
    | _ => none
  | .send f =>
    some { w with
      input := w.input ++ env.framing.encode f
      since := if w.call.isReturned then w.since ++ [f] else w.since }
  | .fail => some { w with broken := true }

/-- Before the query, everything read that was sent. -/
def machine (env : Env β Addr) : Machine (World β Addr) Act where
  init :=
    { input := []
      broken := false
      call := .before
      goroutine := none
      done := none
      reader := .off
      dispatched := []
      since := [] }
  step := step env

/-! ## The condition and the property -/

/-- The timer or the context is chosen after the goroutine's `ParseFrame` has returned. -/
def inTime (w : World β Addr) : Act → Bool
  | .timeout | .cancel => w.goroutine.isNone
  | _ => true

def Reader.got : Reader β → List β
  | .parsing got => got
  | _ => []

/-- The control stream is left to `controlReader`. -/
structure Intact (env : Env β Addr) (w : World β Addr) : Prop where
  /-- The call's goroutine is not reading. -/
  no_goroutine : w.goroutine = none
  /-- As long as the stream works, what the relay has sent since the return is dispatched, or whole
  and in order on the stream. -/
  frames : w.broken = false → ∃ rest, env.framing.Aligned w.reader.got w.input rest ∧
    w.since <:+ w.dispatched ++ rest
  /-- A control reader that goes on dispatches all of it. -/
  dispatches : w.broken = false → (∃ got, w.reader = .parsing got) →
    ∃ w', (machine env).ReachFrom w w' ∧ w'.since = w.since ∧ w.since <:+ w'.dispatched

/-! ## The invariant -/

/-- What the one `ParseFrame` in progress has taken. -/
def World.got (w : World β Addr) : List β := w.goroutine.getD w.reader.got

structure Safe (env : Env β Addr) (w : World β Addr) : Prop where
  goroutine : ∀ got, w.goroutine = some got → w.call = .waiting ∧ w.done = none
  before : w.call = .before → w.done = none
  reader : w.call = .waiting → w.reader = .off
  since : w.call.isReturned = false → w.since = []
  frames : w.broken = false → ∃ rest, env.framing.Aligned w.got w.input rest ∧
    w.since <:+ w.dispatched ++ rest

variable {env : Env β Addr} {w w' : World β Addr} {a : Act} {got got' input : List β}
  {rest : List Frame} {v : Parsed Frame}

/-- A `ParseFrame` that is alone on a working stream has the next frame, or is still in the middle
of it. -/
theorem parseMore_aligned (hφ : env.framing.Lawful)
    (h : parseMore env w got = some (input, got', v)) (hb : w.broken = false)
    (ha : env.framing.Aligned got w.input rest) :
    (v = .more → env.framing.Aligned got' input rest) ∧
    (∀ f, v = .frame f → ∃ fs, rest = f :: fs ∧ env.framing.Aligned [] input fs) ∧
    v ≠ .bad := by
  simp only [parseMore, hb, Bool.false_eq_true, if_false] at h
  cases hin : w.input with
  | nil => simp [hin] at h
  | cons b bs =>
    simp only [hin, Option.some.injEq, Prod.mk.injEq] at h
    obtain ⟨rfl, rfl, rfl⟩ := h
    rcases (hin ▸ ha).read hφ with ⟨f, fs, hrest, hv, ha'⟩ | ⟨hv, ha'⟩
    · simp [hv, hrest, ha']
    · simp [hv, ha']

theorem Safe.ended (h : Safe env w) (hw : w.call = .waiting → w.done ≠ none) :
    w.goroutine = none := by
  by_contra hsome
  obtain ⟨got, hsome⟩ := Option.ne_none_iff_exists'.mp hsome
  obtain ⟨hcall, hdone⟩ := h.goroutine got hsome
  exact hw hcall hdone

/-- The call returns after its goroutine has ended. -/
theorem Safe.return (h : Safe env w) (hg : w.goroutine = none)
    (r : Except Failure (Candidate Addr)) (done : Option (Except Failure (Candidate Addr))) :
    Safe env { w with call := .returned r, done := done } :=
  ⟨by simp [hg], nofun, nofun, nofun, h.frames⟩

theorem Safe.goroutine_step (hφ : env.framing.Lawful) (h : Safe env w)
    (hst : step env w .goroutine = some w') : Safe env w' := by
  simp only [step] at hst
  split at hst
  · cases hst
  rename_i got hg
  obtain ⟨hcall, hdone⟩ := h.goroutine got hg
  have hoff := h.reader hcall
  have hsince := h.since (by simp [hcall, Call.isReturned])
  have halone : w.broken = false → ∃ rest, env.framing.Aligned got w.input rest := fun hb => by
    obtain ⟨rest, ha, -⟩ := h.frames hb
    exact ⟨rest, by simpa [World.got, hg] using ha⟩
  have hnotBefore : w.call ≠ .before := by simp [hcall]
  split at hst
  · cases hst
  · rename_i input got' hp
    cases hst
    refine ⟨fun _ _ => ⟨hcall, hdone⟩, h.before, h.reader, h.since, fun hb => ?_⟩
    obtain ⟨rest, ha⟩ := halone hb
    exact ⟨rest, (parseMore_aligned hφ hp hb ha).1 rfl, by simp [hsince]⟩
  · rename_i input got' f hp
    cases hst
    refine ⟨nofun, fun hbefore => absurd hbefore hnotBefore, h.reader, h.since, fun hb => ?_⟩
    obtain ⟨rest, ha⟩ := halone hb
    obtain ⟨fs, -, ha'⟩ := (parseMore_aligned hφ hp hb ha).2.1 f rfl
    exact ⟨fs, by simpa [World.got, hoff, Reader.got] using ha', by simp [hsince]⟩
  · rename_i input got' hp
    cases hst
    refine ⟨nofun, fun hbefore => absurd hbefore hnotBefore, h.reader, h.since, fun hb => ?_⟩
    obtain ⟨rest, ha⟩ := halone hb
    exact absurd rfl (parseMore_aligned hφ hp hb ha).2.2

/-- The control reader, or `EnableP2P`, moves while the call is not waiting. -/
theorem Safe.reads (h : Safe env w) (hcall : w.call ≠ .waiting) {r : Reader β} {ds : List Frame}
    (hframes : w.broken = false → ∃ rest, env.framing.Aligned r.got input rest ∧
      w.since <:+ ds ++ rest) :
    Safe env { w with input := input, reader := r, dispatched := ds } := by
  have hg := h.ended fun hw => absurd hw hcall
  refine ⟨by simp [hg], h.before, fun hw => absurd hw hcall, h.since, fun hb => ?_⟩
  simpa [World.got, hg] using hframes hb

theorem Safe.reader_step (hφ : env.framing.Lawful) (h : Safe env w) {ctxDone : Bool}
    (hst : step env w (.reader ctxDone) = some w') : Safe env w' := by
  simp only [step] at hst
  split at hst
  swap
  · cases hst
  rename_i got hr
  have hcall : w.call ≠ .waiting := fun hw => by simp [h.reader hw] at hr
  have hgot : w.got = got := by
    simp [World.got, h.ended fun hw => absurd hw hcall, hr, Reader.got]
  split at hst
  · cases hst
  · rename_i input got' hp
    cases hst
    refine h.reads hcall fun hb => ?_
    obtain ⟨rest, ha, hsuf⟩ := h.frames hb
    exact ⟨rest, (parseMore_aligned hφ hp hb (hgot ▸ ha)).1 rfl, hsuf⟩
  · rename_i input got' f hp
    cases hst
    refine h.reads hcall fun hb => ?_
    obtain ⟨rest, ha, hsuf⟩ := h.frames hb
    obtain ⟨fs, rfl, ha'⟩ := (parseMore_aligned hφ hp hb (hgot ▸ ha)).2.1 f rfl
    exact ⟨fs, by cases ctxDone <;> exact ha', by simpa using hsuf⟩
  · rename_i input got' hp
    cases hst
    refine h.reads hcall fun hb => ?_
    obtain ⟨rest, ha, -⟩ := h.frames hb
    exact absurd rfl (parseMore_aligned hφ hp hb (hgot ▸ ha)).2.2

theorem safe_step (hφ : env.framing.Lawful) (h : Safe env w) (hC : inTime w a = true)
    (hst : step env w a = some w') : Safe env w' := by
  cases a with
  | goroutine => exact h.goroutine_step hφ hst
  | reader ctxDone => exact h.reader_step hφ hst
  | call written =>
    simp only [step] at hst
    split at hst
    · rename_i hcall hoff
      have hg := h.ended (by simp [hcall])
      cases written with
      | true =>
        cases hst
        refine ⟨fun _ _ => ⟨rfl, h.before hcall⟩, nofun, fun _ => hoff,
          fun _ => h.since (by simp [hcall, Call.isReturned]), fun hb => ?_⟩
        simpa [World.got, hg, hoff, Reader.got] using h.frames hb
      | false =>
        cases hst
        exact h.return hg _ _
    · rename_i hcall _
      cases hst
      exact h.return (h.ended (by simp [hcall])) _ _
    · cases hst
  | receive =>
    simp only [step] at hst
    split at hst
    · rename_i r hw hdone
      cases hst
      exact h.return (h.ended (by simp [hdone])) _ _
    · cases hst
  | timeout | cancel =>
    simp only [step] at hst
    split at hst
    · cases hst
      exact h.return (by simpa [inTime] using hC) _ _
    · cases hst
  | enableP2P =>
    simp only [step] at hst
    split at hst
    · cases hst
    · rename_i hoff hcall
      cases hst
      refine h.reads hcall fun hb => ?_
      have hg := h.ended fun hw => absurd hw hcall
      simpa [World.got, hg, hoff, Reader.got] using h.frames hb
    · cases hst
      exact h
  | send f =>
    cases hst
    refine ⟨h.goroutine, h.before, h.reader, fun hr => by simpa [hr] using h.since hr, fun hb => ?_⟩
    obtain ⟨rest, ha, hsuf⟩ := h.frames hb
    refine ⟨rest ++ [f], ha.write f, ?_⟩
    cases hr : w.call.isReturned with
    | true =>
      obtain ⟨earlier, hearlier⟩ := hsuf
      exact ⟨earlier, by simp [← List.append_assoc, hearlier]⟩
    | false => simp [h.since hr]
  | fail =>
    cases hst
    exact ⟨h.goroutine, h.before, h.reader, h.since, nofun⟩

theorem safe_of_inTime (hφ : env.framing.Lawful)
    (h : (machine env).ReachWhile (fun w a => inTime w a = true) w) : Safe env w := by
  refine Machine.ReachWhile.invariant (M := machine env)
    ⟨nofun, fun _ => rfl, nofun, fun _ => rfl, fun _ => ⟨[], Framing.aligned_nil, List.suffix_rfl⟩⟩
    ?_ h
  intro w a w' _ hw hC hst
  exact safe_step hφ hw hC hst

/-! ## The control reader gets everything -/

/-- One byte for the control reader. -/
theorem reader_next (env : Env β Addr) {b : β} (hb : w.broken = false)
    (hr : w.reader = .parsing got) (hin : w.input = b :: input) :
    (env.framing.parse (got ++ [b]) = .more → (machine env).ReachFrom w
      { w with input := input, reader := .parsing (got ++ [b]) }) ∧
    ∀ f, env.framing.parse (got ++ [b]) = .frame f → (machine env).ReachFrom w
      { w with input := input, reader := .parsing [], dispatched := w.dispatched ++ [f] } := by
  refine ⟨fun hv => ?_, fun f hv => ?_⟩ <;>
  · refine Relation.ReflTransGen.single ⟨.reader false, trivial, ?_⟩
    simp [machine, step, hr, parseMore, hb, hin, hv]

/-- A control reader that is alone on a working stream dispatches all frames that are left. The
induction is on what is left on the stream. -/
theorem reader_drains (hφ : env.framing.Lawful) (hb : w.broken = false)
    (hr : w.reader = .parsing got) (ha : env.framing.Aligned got w.input rest) :
    ∃ w', (machine env).ReachFrom w w' ∧ w'.since = w.since ∧
      w'.dispatched = w.dispatched ++ rest := by
  induction hin : w.input generalizing w got rest with
  | nil =>
    obtain ⟨-, rfl⟩ := Framing.Aligned.empty hφ (hin ▸ ha)
    exact ⟨w, .refl, rfl, by simp⟩
  | cons b input ih =>
    obtain ⟨hmore, hframe⟩ := reader_next env hb hr hin
    rcases Framing.Aligned.read hφ (hin ▸ ha) with ⟨f, fs, rfl, hv, ha'⟩ | ⟨hv, ha'⟩
    · obtain ⟨w', hreach, hsince, hds⟩ := ih (w := { w with
        input := input, reader := .parsing [], dispatched := w.dispatched ++ [f] }) hb rfl ha' rfl
      exact ⟨w', (hframe f hv).trans hreach, hsince, by simp [hds]⟩
    · obtain ⟨w', hreach, hsince, hds⟩ := ih (w := { w with
        input := input, reader := .parsing (got ++ [b]) }) hb rfl ha' rfl
      exact ⟨w', (hmore hv).trans hreach, hsince, hds⟩

theorem Safe.intact (hφ : env.framing.Lawful) (h : Safe env w) (hcall : w.call ≠ .waiting) :
    Intact env w := by
  have hg := h.ended fun hw => absurd hw hcall
  have hframes : w.broken = false → ∃ rest, env.framing.Aligned w.reader.got w.input rest ∧
      w.since <:+ w.dispatched ++ rest := by
    simpa [World.got, hg] using h.frames
  refine ⟨hg, hframes, fun hb ⟨got, hr⟩ => ?_⟩
  obtain ⟨rest, ha, hsuf⟩ := hframes hb
  obtain ⟨w', hreach, hsince, hds⟩ := reader_drains hφ hb hr (by simpa [hr, Reader.got] using ha)
  exact ⟨w', hreach, hsince, hds ▸ hsuf⟩

/-! ## The results -/

/-- A call that returns while its goroutine is inside `ParseFrame` leaves it there. -/
theorem leaves_goroutine (hC : inTime w a = false) (hst : step env w a = some w') :
    w'.call.isReturned = true ∧ w'.goroutine ≠ none := by
  cases a with
  | timeout | cancel =>
    have hg : w.goroutine ≠ none := fun hnone => by simp [inTime, hnone] at hC
    simp only [step] at hst
    split at hst
    · cases hst
      exact ⟨rfl, hg⟩
    · cases hst
  | _ => cases hC

/-- **The control stream after the query.** In every run in which the call does not return for the
timer or the context before its goroutine's `ParseFrame` has returned, the control stream is left
to `controlReader` when the call has returned. A call that returns before that leaves its goroutine
reading. -/
theorem query_leaves_ctrl (hφ : env.framing.Lawful) :
    (∀ w, (machine env).ReachWhile (fun w a => inTime w a = true) w → w.call.isReturned = true →
      Intact env w) ∧
    ∀ w a w', inTime w a = false → (machine env).step w a = some w' →
      w'.call.isReturned = true ∧ w'.goroutine ≠ none := by
  refine ⟨fun w hw hret => ?_, fun w a w' hC hst => leaves_goroutine hC hst⟩
  refine (safe_of_inTime hφ hw).intact hφ fun hwait => ?_
  simp [hwait, Call.isReturned] at hret

/-- Frames of two pieces, the second of which repeats the first. -/
def twice : Framing Frame Frame where
  encode f := [f, f]
  parse
    | [] | [_] => .more
    | [f, g] => if f = g then .frame f else .bad
    | _ => .bad

theorem twice_lawful : twice.Lawful where
  encode_ne_nil _ := nofun
  parse_encode f := by simp [twice]
  parse_part f bs hpre hne := by
    match bs, hpre with
    | [], _ => rfl
    | [_], _ => rfl
    | [_, _], hpre => exact absurd (hpre.eq_of_length rfl) hne
    | _ :: _ :: _ :: _, hpre => exact absurd hpre.length_le (by simp [twice])

/-- The only address is the public one of the agent's NAT, `203.0.113.7`, by its four bytes. -/
def env₁ : Env Frame (List ℕ) :=
  ⟨twice, fun ip => if ip = "203.0.113.7" then some [203, 0, 113, 7] else none, 7⟩

/-- The query is answered, and `EnableP2P` follows. -/
theorem query_leaves_ctrl_answered :
    ∃ w, (machine env₁).Reach w ∧ w.since = [.other 3] ∧
      w.call = .returned (.ok ⟨"srflx", [203, 0, 113, 7], 4500, 20⟩) ∧ Intact env₁ w := by
  have hrun := Machine.reachWhile_of_run (M := machine env₁) (C := inTime)
    [.call true, .send (.observedAddrResp 7 "203.0.113.7" 4500), .goroutine, .goroutine, .receive,
      .enableP2P, .send (.other 3), .reader false] rfl
  exact ⟨_, hrun.reach, rfl, rfl, (query_leaves_ctrl twice_lawful).1 _ hrun rfl⟩

/-- **The goroutine takes a frame.** The query has timed out; a frame that is sent after `EnableP2P`
goes to the goroutine and is never dispatched. -/
theorem takes_next_frame :
    ∃ w, (machine env₁).Reach w ∧ w.call = .returned (.error .timedOut) ∧
      w.reader = .parsing [] ∧ w.since = [.other 3] ∧ w.input = [] ∧ w.dispatched = [] :=
  ⟨_, Machine.reach_of_run (M := machine env₁)
    [.call true, .timeout, .enableP2P, .send (.other 3), .goroutine, .goroutine] rfl,
    rfl, rfl, rfl, rfl, rfl⟩

end OutRelayAgent.Reflexive
