import OutRelayAgent.Session.Reconnect

/-!
# Attempts to reconnect

Model of `Expose` (`session.go:289-308`) and of `Reconnect` with each of its calls that can fail
(`session.go:701-797`). `RunWithReconnect` calls `Reconnect` again after an error, any number of
times (`session.go:806-854`). `Session/Model.lean` has `Reconnect` among all other goroutines; here
it is alone with what it depends on, in finer steps.

* **An address** is dialled, a control stream is opened, `HELLO` is written, the reply is read and
  decoded. A failure closes the connection that was dialled and goes on to the next address. The
  error of the first failed `Dial` is kept for the case that no address works.
* **`REGISTER`** is written for each name in `s.handlers`, in the order of a map iteration, and its
  reply read and checked. A failure ends the attempt, the new connection being in place.
* **Streams** are then resumed one by one; those for which that fails are dropped (`forgetStream`).
* **Others** open streams at any time, under ids that are not in use, and move streams to other
  connections (`MigrateToDirect`, `handleDirectStream`). Between two attempts they also close
  streams.

`Attempt` records what an attempt was called with and has done, what the tables would be without it
(`without`: only the steps of others are applied to it), and what others have installed in a wrapper
since it was resumed (`moved`). No step reads the record.

* `attempts_account`: an attempt that returns an error leaves the tables and the wrappers as they
  would be without it. One that returns `nil` is on the connection of the first address for which
  `HELLO` was completed, and has moved each wrapper of its snapshot to it or dropped it; a wrapper
  others have moved since is where they moved it. At no time is more than one connection open.
* `moved_during_attempt`: a wrapper that is resumed and then migrated, before the attempt returns.
-/

namespace OutRelayAgent.Attempts

open Lib
open Session (Shared Ref TStream Effect effect markFound Keyed Registered)

/-- The calls after `Dial`, for one address. -/
inductive Stage
  | openStream
  | writeHello
  | readAck
  | decodeAck

/-- What came of an address. -/
inductive Outcome
  | dialFailed
  | failed (stage : Stage)
  | completed (conn : ℕ)

/-- The calls of one `REGISTER`. -/
inductive Exchange
  | write
  | readAck
  | checkAck

/-- The errors of `Reconnect`. -/
inductive Failure (N : Type)
  /-- `session: Reconnect requires at least one addr`. -/
  | noAddr
  /-- The error of `Dial`, for the first address it failed for. -/
  | dial (addr : String)
  /-- `session: all relay endpoints failed`. -/
  | allFailed
  /-- `session: re-register`, `session: read REGISTER_ACK for`,
  `session: expected REGISTER_ACK for`, each with the name. -/
  | register (x : Exchange) (name : N)

/-- Where `Expose` or `Reconnect` stands. -/
inductive Phase (N : Type)
  | idle
  | exposing (x : Exchange) (name : N) (localAddr : String)
  | dial (rest : List String) (dialErr : Option String)
  | hello (stage : Stage) (conn : ℕ) (addr : String) (rest : List String) (dialErr : Option String)
  | swap (conn : ℕ)
  | exposed
  | replay (x : Exchange) (names : List N)
  | snapshot
  | resumeLoop (rest : List Ref)
  | resuming (v : Ref) (rest : List Ref) (st : TStream)
  | drop (v : Ref) (rest : List Ref)
  | dropFound (v : Ref) (rest : List Ref) (found : Option Ref)
  /-- `Reconnect` returns, `none` being `nil`. -/
  | returned (r : Option (Failure N))

/-- The record of an attempt. -/
structure Attempt (ID N H : Type) where
  addrs : List String
  tried : List (String × Outcome)
  snap : List Ref
  /-- What the tables would be without the attempt. -/
  without : Shared ID
  handlers : AList fun _ : N => H
  /-- What others have installed in a wrapper since the attempt began or resumed it. -/
  moved : Ref → Option TStream

/-- Services have names in `N` and handlers in `H`, of which only equality of names matters. -/
structure World (ID N H : Type) where
  shared : Shared ID
  handlers : AList fun _ : N => H
  /-- The services the relay has been sent `REGISTER` for on the current connection. -/
  registered : List (N × String)
  phase : Phase N
  attempt : Attempt ID N H
  /-- The names `Expose` has been called with; no step reads it. -/
  calls : List N
  /-- The local address of the last `Expose` that returned `nil`; no step reads it. -/
  succeeded : N → Option String

inductive Choice (N : Type)
  | ok
  | err
  /-- The order in which `s.handlers` is iterated. -/
  | names (ns : List N)
  /-- The order in which `s.streams` is iterated. -/
  | order (vs : List Ref)

inductive Act (ID N H : Type)
  | reconnect (addrs : List String)
  | expose (name : N) (localAddr : String) (h : H)
  | step (c : Choice N)
  | other (e : Effect ID)

def Stage.next : Stage → Option Stage
  | .openStream => some .writeHello
  | .writeHello => some .readAck
  | .readAck => some .decodeAck
  | .decodeAck => none

variable {ID N H : Type} [DecidableEq ID] [DecidableEq N]

def World.tried (w : World ID N H) (addr : String) (o : Outcome) : Attempt ID N H :=
  { w.attempt with tried := w.attempt.tried ++ [(addr, o)] }

def World.resumed (w : World ID N H) (v : Ref) : Attempt ID N H :=
  { w.attempt with moved := Function.update w.attempt.moved v none }

/-- Others install a stream in a wrapper. -/
def noteMoved (moved : Ref → Option TStream) : Effect ID → Ref → Option TStream
  | .swapInner v st => Function.update moved v (some st)
  | _ => moved

/-- `Expose`, after it has entered the handler. -/
def exposeNext (w : World ID N H) : Phase N → Choice N → Option (World ID N H)
  | .exposing .write name localAddr, .ok =>
    some { w with
      phase := .exposing .readAck name localAddr
      registered := w.registered ++ [(name, localAddr)] }
  | .exposing .readAck name localAddr, .ok =>
    some { w with phase := .exposing .checkAck name localAddr }
  | .exposing .checkAck name localAddr, .ok =>
    some { w with
      phase := .idle
      succeeded := Function.update w.succeeded name (some localAddr) }
  | .exposing _ _ _, .err => some { w with phase := .idle }
  | _, _ => none

/-- `Reconnect` up to the swap of the connection. -/
def dialNext (w : World ID N H) : Phase N → Choice N → Option (World ID N H)
  | .dial [] none, .ok => some { w with phase := .returned (some .allFailed) }
  | .dial [] (some addr), .ok => some { w with phase := .returned (some (.dial addr)) }
  | .dial (addr :: rest) dialErr, .ok =>
    some { w with
      phase := .hello .openStream w.shared.nextConn addr rest dialErr
      shared := effect .newConn w.shared }
  | .dial (addr :: rest) dialErr, .err =>
    some { w with
      phase := .dial rest (dialErr.or (some addr))
      attempt := w.tried addr .dialFailed }
  | .hello stage conn addr rest dialErr, .ok =>
    match stage.next with
    | some stage => some { w with phase := .hello stage conn addr rest dialErr }
    | none => some { w with phase := .swap conn, attempt := w.tried addr (.completed conn) }
  | .hello stage conn addr rest dialErr, .err =>
    some { w with
      phase := .dial rest dialErr
      shared := { w.shared with closed := conn :: w.shared.closed }
      attempt := w.tried addr (.failed stage) }
  | .swap conn, .ok =>
    some { w with phase := .exposed, shared := effect (.setConn conn) w.shared, registered := [] }
  | _, _ => none

/-- `Reconnect`'s `REGISTER` replay. The frame carries the name only. -/
def replayNext (w : World ID N H) : Phase N → Choice N → Option (World ID N H)
  | .exposed, .names ns =>
    if ns.Perm w.handlers.keys then some { w with phase := .replay .write ns } else none
  | .replay .write [], .ok => some { w with phase := .snapshot }
  | .replay .write (name :: ns), .ok =>
    some { w with
      phase := .replay .readAck (name :: ns)
      registered := w.registered ++ [(name, "")] }
  | .replay .readAck (name :: ns), .ok => some { w with phase := .replay .checkAck (name :: ns) }
  | .replay .checkAck (_ :: ns), .ok => some { w with phase := .replay .write ns }
  | .replay x (name :: _), .err => some { w with phase := .returned (some (.register x name)) }
  | _, _ => none

/-- `Reconnect`'s loop over the streams. -/
def resumeNext (w : World ID N H) : Phase N → Choice N → Option (World ID N H)
  | .snapshot, .order vs =>
    if vs.Perm (w.shared.streams.entries.map Sigma.snd) then
      some { w with phase := .resumeLoop vs, attempt := { w.attempt with snap := vs } }
    else none
  | .resumeLoop [], .ok => some { w with phase := .returned none }
  | .resumeLoop (v :: rest), .ok =>
    some { w with
      phase := .resuming v rest ⟨w.shared.conn, w.shared.nextStream⟩
      shared := effect .openStream w.shared }
  | .resumeLoop (v :: rest), .err => some { w with phase := .drop v rest }
  | .resuming v rest st, .ok =>
    some { w with
      phase := .resumeLoop rest
      shared := effect (.swapInner v st) w.shared
      attempt := w.resumed v }
  | .resuming v rest _, .err => some { w with phase := .drop v rest }
  | .drop v rest, .ok =>
    some { w with
      phase := .dropFound v rest (w.shared.streams.lookup (w.shared.wraps v).id)
      shared := effect (.forget (w.shared.wraps v).id) w.shared }
  | .dropFound _ rest found, .ok =>
    some { w with phase := .resumeLoop rest, shared := effect (markFound found) w.shared }
  | .returned _, .ok => some { w with phase := .idle }
  | _, _ => none

def next (w : World ID N H) (c : Choice N) : Option (World ID N H) :=
  match w.phase with
  | .idle => none
  | .exposing _ _ _ => exposeNext w w.phase c
  | .dial _ _ | .hello _ _ _ _ _ | .swap _ => dialNext w w.phase c
  | .exposed | .replay _ _ => replayNext w w.phase c
  | .snapshot | .resumeLoop _ | .resuming _ _ _ | .drop _ _ | .dropFound _ _ _ | .returned _ =>
    resumeNext w w.phase c

/-- What others do during an attempt: they create streams, under ids not in use, and move them. -/
def harmless (s : Shared ID) : Effect ID → Bool
  | .wrapStream id _ _ => (s.streams.lookup id).isNone
  | .swapInner v _ => v < s.nextWrap
  | .nothing | .openStream | .newStreamID | .registerStreamModeWaiter _
  | .cancelStreamModeWaiter _ | .enableP2P => true
  | _ => false

/-- What others do between two attempts: they also close streams. -/
def between (s : Shared ID) : Effect ID → Bool
  | .forget _ | .markAbandoned _ | .swapInner _ _ => true
  | e => harmless s e

def Phase.isIdle : Phase N → Bool
  | .idle => true
  | _ => false

def World.admits (w : World ID N H) (e : Effect ID) : Bool :=
  if w.phase.isIdle then between w.shared e else harmless w.shared e

/-- A new record. -/
def World.begins (w : World ID N H) (addrs : List String) : Attempt ID N H :=
  ⟨addrs, [], [], w.shared, w.handlers, fun _ => none⟩

def step (w : World ID N H) : Act ID N H → Option (World ID N H)
  | .reconnect addrs =>
    if w.phase.isIdle then
      match addrs with
      | [] => some { w with phase := .returned (some .noAddr), attempt := w.begins [] }
      | addr :: rest =>
        some { w with
          phase := .dial (addr :: rest) none
          shared := effect .closeConn w.shared
          attempt := w.begins (addr :: rest) }
    else none
  | .expose name localAddr h =>
    if w.phase.isIdle then
      some { w with
        phase := .exposing .write name localAddr
        handlers := w.handlers.insert name h
        calls := name :: w.calls }
    else none
  | .step c => next w c
  | .other e =>
    if w.admits e then
      some { w with
        shared := effect e w.shared
        attempt := { w.attempt with
          without := effect e w.attempt.without
          moved := noteMoved w.attempt.moved e } }
    else none

/-- A session that has exposed nothing. -/
def machine (ID N H : Type) [DecidableEq ID] [Inhabited ID] [DecidableEq N] :
    Machine (World ID N H) (Act ID N H) where
  init :=
    { shared := Session.initial
      handlers := ∅
      registered := []
      phase := .idle
      attempt := ⟨[], [], [], Session.initial, ∅, fun _ => none⟩
      calls := []
      succeeded := fun _ => none }
  step := step

/-! ## What a step can do -/

/-- The steps of `Expose` and `Reconnect`, by the phase they leave. -/
inductive Moves (w : World ID N H) : Phase N → World ID N H → Prop
  | registers {name a} :
      Moves w (.exposing .write name a)
        { w with phase := .exposing .readAck name a, registered := w.registered ++ [(name, a)] }
  | acked {name a} :
      Moves w (.exposing .readAck name a) { w with phase := .exposing .checkAck name a }
  | exposes {name a} :
      Moves w (.exposing .checkAck name a)
        { w with phase := .idle, succeeded := Function.update w.succeeded name (some a) }
  | exposeFails {x name a} : Moves w (.exposing x name a) { w with phase := .idle }
  | noneWorks {d f} : Moves w (.dial [] d) { w with phase := .returned (some f) }
  | dials {addr rest d} :
      Moves w (.dial (addr :: rest) d)
        { w with
          phase := .hello .openStream w.shared.nextConn addr rest d
          shared := effect .newConn w.shared }
  | dialFails {addr rest d d'} :
      Moves w (.dial (addr :: rest) d)
        { w with phase := .dial rest d', attempt := w.tried addr .dialFailed }
  | stageDone {stage stage' conn addr rest d} :
      Moves w (.hello stage conn addr rest d) { w with phase := .hello stage' conn addr rest d }
  | completes {stage conn addr rest d} :
      Moves w (.hello stage conn addr rest d)
        { w with phase := .swap conn, attempt := w.tried addr (.completed conn) }
  | stageFails {stage conn addr rest d} :
      Moves w (.hello stage conn addr rest d)
        { w with
          phase := .dial rest d
          shared := { w.shared with closed := conn :: w.shared.closed }
          attempt := w.tried addr (.failed stage) }
  | swaps {conn} :
      Moves w (.swap conn)
        { w with phase := .exposed, shared := effect (.setConn conn) w.shared, registered := [] }
  | iterates {ns} : ns.Perm w.handlers.keys →
      Moves w .exposed { w with phase := .replay .write ns }
  | replayEnds : Moves w (.replay .write []) { w with phase := .snapshot }
  | replays {name ns} :
      Moves w (.replay .write (name :: ns))
        { w with
          phase := .replay .readAck (name :: ns)
          registered := w.registered ++ [(name, "")] }
  | replayAcked {name ns} :
      Moves w (.replay .readAck (name :: ns)) { w with phase := .replay .checkAck (name :: ns) }
  | replayed {name ns} :
      Moves w (.replay .checkAck (name :: ns)) { w with phase := .replay .write ns }
  | replayFails {x name ns f} :
      Moves w (.replay x (name :: ns)) { w with phase := .returned (some f) }
  | snapshots {vs} : vs.Perm (w.shared.streams.entries.map Sigma.snd) →
      Moves w .snapshot
        { w with phase := .resumeLoop vs, attempt := { w.attempt with snap := vs } }
  | resumeEnds : Moves w (.resumeLoop []) { w with phase := .returned none }
  | opens {v rest} :
      Moves w (.resumeLoop (v :: rest))
        { w with
          phase := .resuming v rest ⟨w.shared.conn, w.shared.nextStream⟩
          shared := effect .openStream w.shared }
  | unopened {v rest} : Moves w (.resumeLoop (v :: rest)) { w with phase := .drop v rest }
  | resumes {v rest st} :
      Moves w (.resuming v rest st)
        { w with
          phase := .resumeLoop rest
          shared := effect (.swapInner v st) w.shared
          attempt := w.resumed v }
  | unresumed {v rest st} : Moves w (.resuming v rest st) { w with phase := .drop v rest }
  | drops {v rest} :
      Moves w (.drop v rest)
        { w with
          phase := .dropFound v rest (w.shared.streams.lookup (w.shared.wraps v).id)
          shared := effect (.forget (w.shared.wraps v).id) w.shared }
  | marks {v rest found} :
      Moves w (.dropFound v rest found)
        { w with phase := .resumeLoop rest, shared := effect (markFound found) w.shared }
  | leaves {r} : Moves w (.returned r) { w with phase := .idle }

variable {w w' : World ID N H} {ph : Phase N} {c : Choice N}

theorem exposeNext_moves (h : exposeNext w ph c = some w') : Moves w ph w' := by
  unfold exposeNext at h
  split at h
  · cases h
    exact .registers
  · cases h
    exact .acked
  · cases h
    exact .exposes
  · cases h
    exact .exposeFails
  · cases h

theorem dialNext_moves (h : dialNext w ph c = some w') : Moves w ph w' := by
  unfold dialNext at h
  split at h
  · cases h
    exact .noneWorks
  · cases h
    exact .noneWorks
  · cases h
    exact .dials
  · cases h
    exact .dialFails
  · split at h
    · cases h
      exact .stageDone
    · cases h
      exact .completes
  · cases h
    exact .stageFails
  · cases h
    exact .swaps
  · cases h

theorem replayNext_moves (h : replayNext w ph c = some w') : Moves w ph w' := by
  unfold replayNext at h
  split at h
  · split at h
    · rename_i hns
      cases h
      exact .iterates hns
    · cases h
  · cases h
    exact .replayEnds
  · cases h
    exact .replays
  · cases h
    exact .replayAcked
  · cases h
    exact .replayed
  · cases h
    exact .replayFails
  · cases h

theorem resumeNext_moves (h : resumeNext w ph c = some w') : Moves w ph w' := by
  unfold resumeNext at h
  split at h
  · split at h
    · rename_i hvs
      cases h
      exact .snapshots hvs
    · cases h
  · cases h
    exact .resumeEnds
  · cases h
    exact .opens
  · cases h
    exact .unopened
  · cases h
    exact .resumes
  · cases h
    exact .unresumed
  · cases h
    exact .drops
  · cases h
    exact .marks
  · cases h
    exact .leaves
  · cases h

theorem next_moves (h : next w c = some w') : Moves w w.phase w' := by
  unfold next at h
  split at h <;>
  first
    | exact exposeNext_moves h
    | exact dialNext_moves h
    | exact replayNext_moves h
    | exact resumeNext_moves h
    | cases h

/-- The steps of all: `Reconnect` and `Expose` begin when none of them is going on, and then move;
others change the tables, and the record of what these would be without the attempt with them. -/
theorem step_cases {a : Act ID N H} (h : step w a = some w') :
    (w.phase = .idle ∧ w' = { w with phase := .returned (some .noAddr), attempt := w.begins [] }) ∨
    (w.phase = .idle ∧ ∃ addr rest, w' =
      { w with
        phase := .dial (addr :: rest) none
        shared := effect .closeConn w.shared
        attempt := w.begins (addr :: rest) }) ∨
    (w.phase = .idle ∧ ∃ name a h, w' =
      { w with
        phase := .exposing .write name a
        handlers := w.handlers.insert name h
        calls := name :: w.calls }) ∨
    Moves w w.phase w' ∨
    ∃ e, between w.shared e = true ∧ (w.phase ≠ .idle → harmless w.shared e = true) ∧ w' =
      { w with
        shared := effect e w.shared
        attempt := { w.attempt with
          without := effect e w.attempt.without
          moved := noteMoved w.attempt.moved e } } := by
  have hidle (hp : w.phase.isIdle = true) : w.phase = .idle := by
    cases hph : w.phase with
    | idle => rfl
    | _ => simp [hph, Phase.isIdle] at hp
  cases a with
  | reconnect addrs =>
    simp only [step] at h
    split at h
    · rename_i hp
      split at h
      · cases h
        exact .inl ⟨hidle hp, rfl⟩
      · cases h
        exact .inr (.inl ⟨hidle hp, _, _, rfl⟩)
    · cases h
  | expose name localAddr handler =>
    simp only [step] at h
    split at h
    · rename_i hp
      cases h
      exact .inr (.inr (.inl ⟨hidle hp, name, localAddr, handler, rfl⟩))
    · cases h
  | step c => exact .inr (.inr (.inr (.inl (next_moves h))))
  | other e =>
    simp only [step] at h
    split at h
    · rename_i he
      cases h
      rw [World.admits] at he
      refine .inr (.inr (.inr (.inr ⟨e, ?_, fun hp => ?_, rfl⟩)))
      · split at he
        · exact he
        · cases e <;> first | rfl | exact he
      · split at he
        · rename_i hi
          exact absurd (hidle hi) hp
        · exact he
    · cases h

/-! ## Connections -/

/-- The connection an attempt has dialled and not put in place yet. -/
def Phase.own : Phase N → Option ℕ
  | .hello _ conn _ _ _ | .swap conn => some conn
  | _ => none

/-- The one connection that may be open. -/
def Phase.live (s : Shared ID) : Phase N → Option ℕ
  | .dial _ _ => none
  | .hello _ conn _ _ _ | .swap conn => some conn
  | _ => some s.conn

structure Conns (s : Shared ID) (ph : Phase N) : Prop where
  conn : s.conn < s.nextConn
  own : ∀ c, ph.own = some c → c < s.nextConn
  live : ∀ c, c < s.nextConn → c ∉ s.closed → ph.live s = some c

/-- An effect on streams and wrappers. -/
def keepsConns : Effect ID → Bool
  | .closeConn | .newConn | .setConn _ => false
  | _ => true

omit [DecidableEq N] in
theorem Conns.effect {s : Shared ID} {e : Effect ID} (h : Conns s ph) (he : keepsConns e = true) :
    Conns (effect e s) ph := by
  have hlive (s' : Shared ID) (hconn : s'.conn = s.conn) : ph.live s' = ph.live s := by
    cases ph <;> simp [Phase.live, hconn]
  cases e with
  | closeConn | newConn | setConn => cases he
  | _ => exact ⟨h.conn, h.own, fun c hc hopen => (hlive _ rfl).trans (h.live c hc hopen)⟩

omit [DecidableEq ID] [DecidableEq N] in
/-- A phase in which the current connection is the only one. -/
theorem Conns.settle {s : Shared ID} {ph' : Phase N} (h : Conns s ph) (hown : ph'.own = none)
    (hlive : ph.live s = some s.conn) (hlive' : ph'.live s = some s.conn) : Conns s ph' :=
  ⟨h.conn, by simp [hown], fun c hc hopen => hlive'.trans (hlive.symm.trans (h.live c hc hopen))⟩

theorem conns_moves (h : Conns w.shared ph) (hm : Moves w ph w') : Conns w'.shared w'.phase := by
  cases hm with
  | noneWorks =>
    refine ⟨h.conn, nofun, fun c hc hopen => ?_⟩
    cases h.live c hc hopen
  | dials =>
    refine ⟨Nat.lt_succ_of_lt h.conn, fun c hc => ?_, fun c hc hopen => ?_⟩
    · cases hc
      exact Nat.lt_succ_self _
    · rcases Nat.lt_succ_iff_lt_or_eq.mp hc with hlt | rfl
      · cases h.live c hlt hopen
      · rfl
  | dialFails => exact ⟨h.conn, nofun, h.live⟩
  | stageDone => exact ⟨h.conn, h.own, h.live⟩
  | completes => exact ⟨h.conn, h.own, h.live⟩
  | stageFails =>
    refine ⟨h.conn, nofun, fun c hc hopen => ?_⟩
    -- The connection that was the only one is now closed.
    have heq := h.live c hc fun hmem => hopen (List.mem_cons_of_mem _ hmem)
    cases heq
    exact absurd List.mem_cons_self hopen
  | swaps => exact ⟨h.own _ rfl, nofun, h.live⟩
  | opens => exact (h.effect (e := .openStream) rfl).settle rfl rfl rfl
  | resumes => exact (h.effect (e := .swapInner _ _) rfl).settle rfl rfl rfl
  | drops => exact (h.effect (e := .forget _) rfl).settle rfl rfl rfl
  | @marks v rest found =>
    cases found with
    | none => exact h.settle rfl rfl rfl
    | some u => exact (h.effect (e := .markAbandoned u) rfl).settle rfl rfl rfl
  | _ => exact h.settle rfl rfl rfl

theorem between_keepsConns {s : Shared ID} {e : Effect ID} (h : between s e = true) :
    keepsConns e = true := by
  cases e <;> first | rfl | cases h

theorem reach_conns [Inhabited ID] (h : (machine ID N H).Reach w) : Conns w.shared w.phase := by
  refine Machine.Reach.invariant (M := machine ID N H) (I := fun w => Conns w.shared w.phase)
    ⟨Nat.zero_lt_one, nofun, fun c hc _ => ?_⟩ ?_ h
  · exact congrArg some (Nat.lt_one_iff.mp hc).symm
  intro w a w' hw hst
  obtain ⟨hp, rfl⟩ | ⟨hp, addr, rest, rfl⟩ | ⟨hp, n, a, f, rfl⟩ | hm | ⟨e, he, -, rfl⟩ :=
    step_cases hst
  · exact (hp ▸ hw).settle rfl rfl rfl
  · have hw : Conns w.shared .idle := hp ▸ hw
    refine ⟨hw.conn, nofun, fun c hc hopen => ?_⟩
    have heq := hw.live c hc fun hmem => hopen (List.mem_cons_of_mem _ hmem)
    cases heq
    exact absurd List.mem_cons_self hopen
  · exact (hp ▸ hw).settle rfl rfl rfl
  · exact conns_moves hw hm
  · exact hw.effect (between_keepsConns he)

/-! ## Addresses -/

/-- The first address for which `HELLO` was completed, on `conn`. -/
def First (addrs : List String) (tried : List (String × Outcome)) (conn : ℕ) : Prop :=
  ∃ pre addr rest, addrs = pre.map Prod.fst ++ addr :: rest ∧
    tried = pre ++ [(addr, .completed conn)] ∧ ∀ x ∈ pre, ∀ c, x.2 ≠ .completed c

/-- All addresses so far have failed, and `rest` are left. -/
def NoneYet (addrs : List String) (tried : List (String × Outcome)) (rest : List String) : Prop :=
  addrs = tried.map Prod.fst ++ rest ∧ ∀ x ∈ tried, ∀ c, x.2 ≠ .completed c

def Tries (conn : ℕ) (addrs : List String) (tried : List (String × Outcome)) : Phase N → Prop
  | .dial rest _ => NoneYet addrs tried rest
  | .hello _ _ addr rest _ => NoneYet addrs tried (addr :: rest)
  | .swap conn => First addrs tried conn
  | .exposed | .replay _ _ | .snapshot | .resumeLoop _ | .resuming _ _ _ | .drop _ _
  | .dropFound _ _ _ | .returned none => First addrs tried conn
  | _ => True

section Tries

variable {addrs rest : List String} {tried : List (String × Outcome)} {addr : String}

theorem NoneYet.next {o : Outcome} (h : NoneYet addrs tried (addr :: rest))
    (ho : ∀ c, o ≠ .completed c) : NoneYet addrs (tried ++ [(addr, o)]) rest := by
  obtain ⟨rfl, hfailed⟩ := h
  refine ⟨by simp, fun x hx => ?_⟩
  rcases List.mem_append.mp hx with hx | hx
  · exact hfailed x hx
  · rw [List.mem_singleton.mp hx]
    exact ho

theorem NoneYet.first (h : NoneYet addrs tried (addr :: rest)) (conn : ℕ) :
    First addrs (tried ++ [(addr, .completed conn)]) conn :=
  ⟨tried, addr, rest, h.1, rfl, h.2⟩

end Tries

theorem tries_moves (h : Tries w.shared.conn w.attempt.addrs w.attempt.tried ph)
    (hm : Moves w ph w') : Tries w'.shared.conn w'.attempt.addrs w'.attempt.tried w'.phase := by
  cases hm with
  | dialFails => exact NoneYet.next h nofun
  | completes => exact NoneYet.first h _
  | stageFails => exact NoneYet.next h nofun
  | @marks v rest found => cases found <;> exact h
  | _ => first | exact h | trivial

theorem effect_conn {s : Shared ID} {e : Effect ID} (he : keepsConns e = true) :
    (effect e s).conn = s.conn := by
  cases e <;> first | rfl | cases he

theorem reach_tries [Inhabited ID] (h : (machine ID N H).Reach w) :
    Tries w.shared.conn w.attempt.addrs w.attempt.tried w.phase := by
  refine Machine.Reach.invariant (M := machine ID N H)
    (I := fun w => Tries w.shared.conn w.attempt.addrs w.attempt.tried w.phase) trivial ?_ h
  intro w a w' hw hst
  obtain ⟨-, rfl⟩ | ⟨-, addr, rest, rfl⟩ | ⟨-, n, a, f, rfl⟩ | hm | ⟨e, he, -, rfl⟩ :=
    step_cases hst
  · trivial
  · exact ⟨rfl, nofun⟩
  · trivial
  · exact tries_moves hw hm
  · simpa only [effect_conn (between_keepsConns he)] using hw

/-! ## The tables, up to the snapshot -/

/-- The same streams and wrappers. -/
structure SameTables (s s' : Shared ID) : Prop where
  streams : s.streams = s'.streams
  wraps : s.wraps = s'.wraps
  nextWrap : s.nextWrap = s'.nextWrap

theorem SameTables.effect {s s' : Shared ID} (h : SameTables s s') (e : Effect ID) :
    SameTables (effect e s) (effect e s') := by
  obtain ⟨h₁, h₂, h₃⟩ := h
  cases e <;> constructor <;> simp [Session.effect, Shared.setWrap, h₁, h₂, h₃]

/-- Before the loop over the streams, and after an error. -/
def Phase.early : Phase N → Bool
  | .dial _ _ | .hello _ _ _ _ _ | .swap _ | .exposed | .replay _ _ | .snapshot
  | .returned (some _) => true
  | _ => false

structure Early (w : World ID N H) : Prop where
  tables : SameTables w.shared w.attempt.without
  handlers : w.handlers = w.attempt.handlers

theorem early_moves (h : ph.early = true → Early w) (hm : Moves w ph w')
    (hp : w'.phase.early = true) : Early w' := by
  cases hm with
  | noneWorks | dials | dialFails | stageDone | completes | stageFails | swaps | iterates
  | replayEnds | replays | replayAcked | replayed | replayFails =>
    have h := h rfl
    exact ⟨⟨h.tables.streams, h.tables.wraps, h.tables.nextWrap⟩, h.handlers⟩
  | _ => cases hp

theorem reach_early [Inhabited ID] (h : (machine ID N H).Reach w) (hp : w.phase.early = true) :
    Early w := by
  refine Machine.Reach.invariant (M := machine ID N H)
    (I := fun w => w.phase.early = true → Early w) nofun ?_ h hp
  intro w a w' hw hst hp
  obtain ⟨-, rfl⟩ | ⟨-, addr, rest, rfl⟩ | ⟨-, n, a, f, rfl⟩ | hm | ⟨e, -, -, rfl⟩ :=
    step_cases hst
  · exact ⟨⟨rfl, rfl, rfl⟩, rfl⟩
  · exact ⟨⟨rfl, rfl, rfl⟩, rfl⟩
  · cases hp
  · exact early_moves hw hm hp
  · exact ⟨(hw hp).tables.effect e, (hw hp).handlers⟩

/-! ## The loop over the streams -/

/-- Where a wrapper stands that has been resumed: on the connection, or where others have moved it
since. -/
def Placed (s : Shared ID) (moved : Ref → Option TStream) (v : Ref) : Prop :=
  match moved v with
  | none => (s.wraps v).inner.conn = s.conn
  | some st => (s.wraps v).inner = st

/-- The wrapper has been resumed and is registered, or is dropped. -/
def Accounted (s : Shared ID) (moved : Ref → Option TStream) (v : Ref) : Prop :=
  Placed s moved v ∧ Registered s v ∨ (s.wraps v).abandoned = true ∧ ¬ Registered s v

/-- In the loop, or returned `nil`. -/
def Phase.looping : Phase N → Bool
  | .resumeLoop _ | .resuming _ _ _ | .drop _ _ | .dropFound _ _ _ | .returned none => true
  | _ => false

def Phase.todo : Phase N → List Ref
  | .resumeLoop rest | .dropFound _ rest _ => rest
  | .resuming v rest _ | .drop v rest => v :: rest
  | _ => []

/-- Removed from `s.streams` and not marked yet. -/
def Phase.dropping : Phase N → Option Ref
  | .dropFound v _ _ => some v
  | _ => none

def Phase.found : Phase N → Option Ref
  | .dropFound _ _ found => found
  | _ => none

def Phase.stream : Phase N → Option TStream
  | .resuming _ _ st => some st
  | _ => none

structure Loop (s : Shared ID) (moved : Ref → Option TStream) (snap : List Ref) (ph : Phase N) :
    Prop where
  created : ∀ v ∈ snap, v < s.nextWrap
  nodup : ph.todo.Nodup
  todo : ∀ v ∈ ph.todo, v ∈ snap ∧ Registered s v
  dropping : ∀ v, ph.dropping = some v → v ∈ snap ∧ ¬ Registered s v ∧ v ∉ ph.todo
  found : ph.found = ph.dropping
  stream : ∀ st, ph.stream = some st → st.conn = s.conn
  done : ∀ v ∈ snap, v ∈ ph.todo ∨ ph.dropping = some v ∨ Accounted s moved v

section Loop

omit [DecidableEq N]

open Session (Unchanged)

variable {s s' : Shared ID} {moved moved' : Ref → Option TStream} {snap rest : List Ref}
  {ph' : Phase N} {u v : Ref}

theorem Accounted.unchanged (h : Accounted s moved v) (hv : Unchanged s s' v)
    (hconn : s'.conn = s.conn) (hmoved : moved' v = moved v) : Accounted s' moved' v := by
  unfold Accounted Placed
  rw [hv.inner, hv.abandoned, hv.registered, hconn, hmoved]
  exact h

/-- A step that leaves the wrappers of the snapshot alone. -/
theorem Loop.same (h : Loop s moved snap ph) (hle : s.nextWrap ≤ s'.nextWrap)
    (hconn : s'.conn = s.conn)
    (hsame : ∀ v < s.nextWrap, Unchanged s s' v) (htodo : ph'.todo = ph.todo)
    (hdropping : ph'.dropping = ph.dropping) (hfound : ph'.found = ph.found)
    (hstream : ∀ st, ph'.stream = some st → st.conn = s'.conn) : Loop s' moved snap ph' := by
  have hv {v : Ref} (hv : v ∈ snap) := hsame v (h.created v hv)
  refine ⟨fun v hv => Nat.lt_of_lt_of_le (h.created v hv) hle, htodo ▸ h.nodup, ?_, ?_, ?_, hstream,
    ?_⟩
  · rw [htodo]
    intro v hmem
    obtain ⟨hsnap, hreg⟩ := h.todo v hmem
    exact ⟨hsnap, (hv hsnap).registered.mpr hreg⟩
  · rw [htodo, hdropping]
    intro v hdrop
    obtain ⟨hsnap, hreg, hmem⟩ := h.dropping v hdrop
    exact ⟨hsnap, fun hreg' => hreg ((hv hsnap).registered.mp hreg'), hmem⟩
  · rw [hfound, hdropping, h.found]
  · rw [htodo, hdropping]
    intro v hsnap
    exact (h.done v hsnap).imp_right (Or.imp_right fun hacc => hacc.unchanged (hv hsnap) hconn rfl)

/-- Of the streams others create, none is in the snapshot. -/
theorem harmless_unchanged {e : Effect ID} (he : harmless s e = true)
    (hmoves : ∀ u st, e ≠ .swapInner u st) (hv : v < s.nextWrap) : Unchanged s (effect e s) v := by
  cases e with
  | swapInner u st => exact absurd rfl (hmoves u st)
  | wrapStream id inner dialed =>
    have hwrap : (effect (.wrapStream id inner dialed) s).wraps v = s.wraps v := by
      simp [effect, Shared.setWrap, Nat.ne_of_lt hv]
    refine ⟨by rw [hwrap], by rw [hwrap], ?_⟩
    unfold Registered
    rw [hwrap]
    rcases eq_or_ne (s.wraps v).id id with hid | hid
    · -- The id is not in use before, and belongs to the new wrapper after.
      have hnone : s.streams.lookup id = none := by simpa [harmless] using he
      rw [hid, hnone]
      simpa [effect] using Nat.ne_of_gt hv
    · simp [effect, AList.lookup_insert_ne hid]
  | forget | markAbandoned | closeConn | newConn | setConn => cases he
  | _ => exact ⟨rfl, rfl, Iff.rfl⟩

theorem registered_effect {e : Effect ID} (he : (effect e s).streams = s.streams)
    (hv : v < s.nextWrap) : Registered (effect e s) v ↔ Registered s v := by
  unfold Registered
  rw [he, Session.effect_wraps_id e hv]

/-- A step on one stream leaves the other streams that are left registered. -/
theorem Loop.others_todo (h : Loop s moved snap ph) (hother : ∀ u, u ≠ v → Unchanged s s' u)
    (hu : u ∈ ph.todo) (hne : u ≠ v) : u ∈ snap ∧ Registered s' u := by
  obtain ⟨hsnap, hreg⟩ := h.todo u hu
  exact ⟨hsnap, (hother u hne).registered.mpr hreg⟩

/-- It leaves those that are done accounted for. -/
theorem Loop.others_done (h : Loop s moved snap ph) (hother : ∀ u, u ≠ v → Unchanged s s' u)
    (hconn : s'.conn = s.conn) (hmoved : ∀ u, u ≠ v → moved' u = moved u) (hu : u ∈ snap)
    (hne : u ≠ v) (hdrop : ph.dropping ≠ some u) : u ∈ ph.todo ∨ Accounted s' moved' u := by
  rcases h.done u hu with hmem | hdrop' | hacc
  · exact .inl hmem
  · exact absurd hdrop' hdrop
  · exact .inr (hacc.unchanged (hother u hne) hconn (hmoved u hne))

/-- Others move a stream. -/
theorem Loop.moves {st : TStream} (h : Loop s moved snap ph) :
    Loop (effect (.swapInner v st) s) (noteMoved moved (.swapInner v st : Effect ID)) snap ph := by
  have hother : ∀ u, u ≠ v → Unchanged s (effect (.swapInner v st) s) u :=
    fun _ hu => Session.setWrap_unchanged _ hu
  have hreg {u : Ref} (hu : u ∈ snap) :
      Registered (effect (.swapInner v st) s) u ↔ Registered s u :=
    registered_effect rfl (h.created u hu)
  refine ⟨h.created, h.nodup, fun u hu => ?_, fun u hu => ?_, h.found, h.stream, fun u hu => ?_⟩
  · obtain ⟨hsnap, hr⟩ := h.todo u hu
    exact ⟨hsnap, (hreg hsnap).mpr hr⟩
  · obtain ⟨hsnap, hr, hmem⟩ := h.dropping u hu
    exact ⟨hsnap, fun hr' => hr ((hreg hsnap).mp hr'), hmem⟩
  · refine (h.done u hu).imp_right (Or.imp_right fun hacc => ?_)
    rcases eq_or_ne u v with rfl | hne
    · -- The wrapper is where it was moved to; whether it is registered has not changed.
      refine hacc.imp (fun hin => ⟨?_, (hreg hu).mpr hin.2⟩)
        fun hout => ⟨?_, fun hr => hout.2 ((hreg hu).mp hr)⟩
      · simp [Placed, noteMoved, effect, Shared.setWrap]
      · simpa [effect, Shared.setWrap] using hout.1
    · exact hacc.unchanged (hother u hne) rfl (Function.update_of_ne hne _ _)

/-- The stream is resumed. -/
theorem Loop.resumes {st : TStream} (h : Loop s moved snap (.resuming v rest st : Phase N)) :
    Loop (effect (.swapInner v st) s) (Function.update moved v none) snap
      (.resumeLoop rest : Phase N) := by
  obtain ⟨hnew, hnodup⟩ := List.nodup_cons.mp h.nodup
  have hother : ∀ u, u ≠ v → Unchanged s (effect (.swapInner v st) s) u :=
    fun _ hu => Session.setWrap_unchanged _ hu
  have hstill : ∀ u, u ≠ v → Function.update moved v none u = moved u :=
    fun _ hu => Function.update_of_ne hu _ _
  refine ⟨h.created, hnodup, fun u hu => ?_, fun _ hu => (by cases hu), rfl,
    fun _ hst => (by cases hst), fun u hu => ?_⟩
  · exact h.others_todo hother (List.mem_cons_of_mem _ hu) (ne_of_mem_of_not_mem hu hnew)
  · rcases eq_or_ne u v with rfl | hne
    · have hreg := (h.todo u List.mem_cons_self).2
      refine .inr (.inr (.inl ⟨?_, ?_⟩))
      · simpa [Placed, effect, Shared.setWrap] using h.stream st rfl
      · exact (registered_effect rfl (h.created u hu)).mpr hreg
    · rcases h.others_done hother rfl hstill hu hne (fun hdrop => by cases hdrop) with hmem | hacc
      · exact .inl ((List.mem_cons.mp hmem).resolve_left hne)
      · exact .inr (.inr hacc)

/-- The entry of a stream that is dropped is removed. -/
theorem Loop.drops (h : Loop s moved snap (.drop v rest : Phase N)) :
    Loop (effect (.forget (s.wraps v).id) s) moved snap
      (.dropFound v rest (s.streams.lookup (s.wraps v).id) : Phase N) := by
  obtain ⟨hnew, hnodup⟩ := List.nodup_cons.mp h.nodup
  obtain ⟨hsnap, hreg⟩ := h.todo v List.mem_cons_self
  have hown : (s.streams.lookup (s.wraps v).id).all (· == v) = true := by
    simp [show s.streams.lookup (s.wraps v).id = some v from hreg]
  have hother : ∀ u, u ≠ v → Unchanged s (effect (.forget (s.wraps v).id) s) u :=
    fun _ hu => Session.forget_unchanged hu hown
  refine ⟨h.created, hnodup, fun u hu => ?_, fun u hu => ?_, hreg, fun _ hst => (by cases hst),
    fun u hu => ?_⟩
  · exact h.others_todo hother (List.mem_cons_of_mem _ hu) (ne_of_mem_of_not_mem hu hnew)
  · cases hu
    exact ⟨hsnap, by simp [effect, Registered], hnew⟩
  · rcases eq_or_ne u v with rfl | hne
    · exact .inr (.inl rfl)
    · rcases h.others_done hother rfl (fun _ _ => rfl) hu hne
        (fun hdrop => by cases hdrop) with hmem | hacc
      · exact .inl ((List.mem_cons.mp hmem).resolve_left hne)
      · exact .inr (.inr hacc)

/-- The wrapper of a stream that is dropped is marked. -/
theorem Loop.marks {found : Option Ref}
    (h : Loop s moved snap (.dropFound v rest found : Phase N)) :
    Loop (effect (markFound found) s) moved snap (.resumeLoop rest : Phase N) := by
  obtain rfl : found = some v := h.found
  obtain ⟨-, hreg, hnew⟩ := h.dropping v rfl
  have hother : ∀ u, u ≠ v → Unchanged s (effect (.markAbandoned v) s) u :=
    fun _ hu => Session.setWrap_unchanged _ hu
  refine ⟨h.created, h.nodup, fun u hu => ?_, nofun, rfl, nofun, fun u hu => ?_⟩
  · exact h.others_todo hother hu (ne_of_mem_of_not_mem hu hnew)
  · rcases eq_or_ne u v with rfl | hne
    · refine .inr (.inr (.inr ⟨?_, ?_⟩))
      · simp [effect, markFound, Shared.setWrap]
      · exact fun hreg' => hreg ((registered_effect rfl (h.created u hu)).mp hreg')
    · have hdrop : some v ≠ some u := fun heq => hne (Option.some.inj heq).symm
      exact (h.others_done hother rfl (fun _ _ => rfl) hu hne hdrop).imp_right .inr

/-- The snapshot has every registered wrapper once. -/
theorem loop_snapshot (hkey : Keyed s) (hperm : snap.Perm (s.streams.entries.map Sigma.snd)) :
    Loop s moved snap (.resumeLoop snap : Phase N) := by
  have hreg {v : Ref} (hv : v ∈ snap) : v < s.nextWrap ∧ Registered s v := by
    obtain ⟨id, hid⟩ := (Session.mem_snapshot hperm).mp hv
    obtain ⟨hlt, rfl⟩ := hkey id v hid
    exact ⟨hlt, hid⟩
  have hnodup : (s.streams.entries.map Sigma.snd).Nodup := by
    refine List.Nodup.map_on ?_ s.streams.nodupKeys.nodup
    rintro ⟨id, v⟩ hv ⟨id', v'⟩ hv' rfl
    -- Two entries of one wrapper are under its id.
    have hid := (hkey id v (AList.mem_lookup_iff.mpr hv)).2
    have hid' := (hkey id' v (AList.mem_lookup_iff.mpr hv')).2
    rw [← hid, ← hid']
  exact ⟨fun v hv => (hreg hv).1, hperm.nodup_iff.mpr hnodup, fun v hv => ⟨hv, (hreg hv).2⟩, nofun,
    rfl, nofun, fun v hv => .inl hv⟩

end Loop

theorem loop_moves (hkey : Keyed w.shared)
    (h : ph.looping = true → Loop w.shared w.attempt.moved w.attempt.snap ph) (hm : Moves w ph w')
    (hp : w'.phase.looping = true) :
    Loop w'.shared w'.attempt.moved w'.attempt.snap w'.phase := by
  have hrefl : ∀ v < w.shared.nextWrap, Session.Unchanged w.shared w.shared v :=
    fun v _ => Session.Unchanged.refl _ v
  cases hm with
  | snapshots hperm => exact loop_snapshot hkey hperm
  | resumes => exact (h rfl).resumes
  | drops => exact (h rfl).drops
  | marks => exact (h rfl).marks
  | opens =>
    exact (h rfl).same (Nat.le_refl _) rfl
      (fun v hv => harmless_unchanged (e := .openStream) rfl nofun hv) rfl rfl rfl
      fun st hst => by
        cases hst
        rfl
  | unopened | unresumed | resumeEnds =>
    exact (h rfl).same (Nat.le_refl _) rfl hrefl rfl rfl rfl nofun
  | _ => cases hp

theorem reach_keyed [Inhabited ID] (h : (machine ID N H).Reach w) : Keyed w.shared := by
  refine Machine.Reach.invariant (M := machine ID N H) (I := fun w => Keyed w.shared) ?_ ?_ h
  · intro id v hv
    simp [machine, Session.initial] at hv
  intro w a w' hw hst
  obtain ⟨-, rfl⟩ | ⟨-, addr, rest, rfl⟩ | ⟨-, n, a, f, rfl⟩ | hm | ⟨e, -, -, rfl⟩ :=
    step_cases hst
  · exact hw
  · exact hw
  · exact hw
  · generalize w.phase = ph at hm
    cases hm with
    | opens | resumes | drops | marks => exact Session.effect_keyed _ hw
    | _ => exact hw
  · exact Session.effect_keyed e hw

theorem reach_loop [Inhabited ID] (h : (machine ID N H).Reach w) (hp : w.phase.looping = true) :
    Loop w.shared w.attempt.moved w.attempt.snap w.phase := by
  refine Machine.ReachWhile.invariant (M := machine ID N H) (I := fun w => w.phase.looping = true →
    Loop w.shared w.attempt.moved w.attempt.snap w.phase) nofun ?_ h hp
  intro w a w' hr hw _ hst hp
  obtain ⟨-, rfl⟩ | ⟨-, addr, rest, rfl⟩ | ⟨-, n, a, f, rfl⟩ | hm | ⟨e, he, hquiet, rfl⟩ :=
    step_cases hst
  · cases hp
  · cases hp
  · cases hp
  · exact loop_moves (reach_keyed hr) hw hm hp
  · have hharm : harmless w.shared e = true := hquiet fun hidle => by
      simp [hidle, Phase.looping] at hp
    have hconn := effect_conn (s := w.shared) (between_keepsConns he)
    by_cases hmoves : ∃ u st, e = .swapInner u st
    · obtain ⟨u, st, rfl⟩ := hmoves
      exact (hw hp).moves
    · have hstill : noteMoved w.attempt.moved e = w.attempt.moved := by
        cases e with
        | swapInner u st => exact absurd ⟨u, st, rfl⟩ hmoves
        | _ => rfl
      have hsame : ∀ v < w.shared.nextWrap, Session.Unchanged w.shared (effect e w.shared) v :=
        fun v hv => harmless_unchanged hharm (fun u st he => hmoves ⟨u, st, he⟩) hv
      rw [hstill]
      exact (hw hp).same (Session.effect_nextWrap_le e w.shared) hconn hsame rfl rfl rfl
        fun st hst => ((hw hp).stream st hst).trans hconn.symm

/-! ## The results -/

/-- What an attempt has done when it returns. -/
structure Returned (w : World ID N H) : Prop where
  /-- After an error, the wrappers, `s.streams` and `s.handlers` are as without the attempt. -/
  error : ∀ f, w.phase = .returned (some f) → w.shared.wraps = w.attempt.without.wraps ∧
    w.shared.streams = w.attempt.without.streams ∧ w.handlers = w.attempt.handlers
  /-- After `nil`, the connection is that of the first address for which `HELLO` was completed. -/
  address : w.phase = .returned none → First w.attempt.addrs w.attempt.tried w.shared.conn
  /-- After `nil`, each wrapper of the snapshot is registered and has a stream on that connection,
  or the one others have installed since it was resumed; or it is abandoned and removed. -/
  streams : w.phase = .returned none → ∀ v ∈ w.attempt.snap,
    ((w.attempt.moved v = none → (w.shared.wraps v).inner.conn = w.shared.conn) ∧
      (∀ st, w.attempt.moved v = some st → (w.shared.wraps v).inner = st) ∧
      w.shared.streams.lookup (w.shared.wraps v).id = some v) ∨
    (w.shared.wraps v).abandoned = true ∧ ∀ id, w.shared.streams.lookup id ≠ some v

/-- **Every attempt is accounted for**, and at no time is more than one connection open. -/
theorem attempts_account [Inhabited ID] (h : (machine ID N H).Reach w) :
    Returned w ∧ ∀ c c', c < w.shared.nextConn → c' < w.shared.nextConn → c ∉ w.shared.closed →
      c' ∉ w.shared.closed → c = c' := by
  refine ⟨⟨fun f hp => ?_, fun hp => ?_, fun hp v hv => ?_⟩, fun c c' hc hc' hopen hopen' => ?_⟩
  · have hearly := reach_early h (by rw [hp]; rfl)
    exact ⟨hearly.tables.wraps, hearly.tables.streams, hearly.handlers⟩
  · simpa [hp, Tries] using reach_tries h
  · have hloop := reach_loop h (by rw [hp]; rfl)
    rw [hp] at hloop
    rcases hloop.done v hv with hmem | hdrop | hacc
    · cases hmem
    · cases hdrop
    · refine hacc.imp (fun ⟨hplaced, hreg⟩ => ⟨fun hmoved => ?_, fun st hmoved => ?_, hreg⟩)
        fun ⟨hab, hreg⟩ => ⟨hab, fun id hid => hreg ?_⟩
      · simpa only [Placed, hmoved] using hplaced
      · simpa only [Placed, hmoved] using hplaced
      · obtain ⟨-, rfl⟩ := reach_keyed h id v hid
        exact hid
  · have hconns := reach_conns h
    exact Option.some.inj ((hconns.live c hc hopen).symm.trans (hconns.live c' hc' hopen'))

/-- A stream is opened, the first attempt finds no relay, and the second reaches the second address,
where the stream cannot be resumed. -/
theorem attempts_account_second :
    ∃ w, (machine ℕ ℕ ℕ).Reach w ∧ w.phase = .returned none ∧ w.attempt.snap = [0] ∧
      w.attempt.addrs = ["a", "b"] ∧ Returned w := by
  have hrun := Machine.reach_of_run (M := machine ℕ ℕ ℕ)
    [.other (.wrapStream 5 ⟨0, 0⟩ none), .reconnect ["a"], .step .err, .step .ok, .step .ok,
      .reconnect ["a", "b"], .step .ok, .step .err, .step .ok, .step .ok, .step .ok, .step .ok,
      .step .ok, .step .ok, .step (.names []), .step .ok, .step (.order [0]), .step .err,
      .step .ok, .step .ok, .step .ok] rfl
  exact ⟨_, hrun, rfl, rfl, rfl, (attempts_account hrun).1⟩

/-- **A wrapper that is registered and not on the new connection.** The stream is resumed on
connection 1; before `Reconnect` returns, `MigrateToDirect` installs a stream of connection 9. -/
theorem moved_during_attempt :
    ∃ w, (machine ℕ ℕ ℕ).Reach w ∧ w.phase = .returned none ∧ w.attempt.snap = [0] ∧
      w.shared.conn = 1 ∧ (w.shared.wraps 0).inner.conn = 9 ∧
      w.shared.streams.lookup (w.shared.wraps 0).id = some 0 ∧
      (w.shared.wraps 0).abandoned = false :=
  ⟨_, Machine.reach_of_run (M := machine ℕ ℕ ℕ)
    [.other (.wrapStream 5 ⟨0, 0⟩ none), .reconnect ["a"], .step .ok, .step .ok, .step .ok,
      .step .ok, .step .ok, .step .ok, .step (.names []), .step .ok, .step (.order [0]), .step .ok,
      .step .ok, .other (.swapInner 0 ⟨9, 0⟩), .step .ok] rfl, rfl, rfl, rfl, rfl, rfl, rfl⟩

end OutRelayAgent.Attempts
