import OutRelayAgent.Lib.Threads
import OutRelayAgent.Lib.Table

/-!
# A session: its tables and the goroutines that change them

Model of the parts of `Session` that create, find, drop and move `ResumableStream` wrappers:
`Session.Dial` with `freshStreamID` (`session.go:324-371`), `handleIncoming`
(`session.go:889-973`), `wrapStream` and `forgetStream` (`session.go:373-410`),
`ResumableStream.Close` (`session.go:550-573`), `Reconnect` (`session.go:701-797`),
`RegisterStreamModeWaiter`, `CancelStreamModeWaiter` and `WaitForStreamMode`
(`promote.go:289-362`), `MigrateToDirect` and `handleDirectStream` (`promote.go:512-587`),
`EnableP2P` (`promote.go:32-47`).

* **Shared state**: `s.streams` and `s.pendingMode`, association lists with one entry per id; the
  wrappers, which are objects with an identity (`Ref`) and keep the id they were made with; the
  current connection.
* **Each goroutine is a thread** (`Task`), cut at the lock sections: `freshStreamID` looks an id up
  in one, `wrapStream` enters it in another; `forgetStream` removes the entry under `s.mu` and marks
  the wrapper it found after releasing it. Errors of the transport are choices (`Choice.err`).
* `NewStreamID` is outside this repository: `gen k` is the id its `k`-th call returns.
* `ActiveStreams` returns the registered wrappers in the order of a map iteration, any order.
* `bridge` closes the wrapper and `handleIncoming`'s deferred `Close` closes it once more, so
  `close w n` is a call of `Close` with `n` more to follow.

A `Resume` of `Reconnect` is three steps here (open the stream, exchange and retransmit, swap or
drop); what is sent in between is in `Resume/Relay.lean`.
-/

namespace OutRelayAgent.Session

open Lib

/-- A transport stream: the connection that carries it, and its number. -/
structure TStream where
  conn : ℕ
  num : ℕ
  deriving DecidableEq, Repr

/-- A `ResumableStream` by its address. -/
abbrev Ref := ℕ

/-- What a `ResumableStream` holds. `dialed` is the call of `NewStreamID` whose id it got, when
`Dial` created it; no step reads it. -/
structure Wrapper (ID : Type) where
  id : ID
  inner : TStream
  abandoned : Bool
  dialed : Option ℕ

/-- The tables of a `Session`. -/
structure Shared (ID : Type) where
  streams : AList fun _ : ID => Ref
  pendingMode : AList fun _ : ID => ℕ
  wraps : Ref → Wrapper ID
  nextWrap : Ref
  nextChan : ℕ
  p2pEnabled : Bool
  conn : ℕ
  nextConn : ℕ
  /-- The connections `Reconnect` has closed. -/
  closed : List ℕ
  nextStream : ℕ
  /-- How often `NewStreamID` has been called. -/
  generated : ℕ

/-- Where a goroutine stands. -/
inductive Task (ID : Type)
  | done
  | dial
  | dialOpened (st : TStream)
  | dialNamed (st : TStream) (k : ℕ)
  | dialFresh (st : TStream) (k : ℕ)
  | dialEnabled (st : TStream) (k : ℕ)
  | dialReady (st : TStream) (k : ℕ) (ena : Bool)
  | dialSent (st : TStream) (k : ℕ)
  | incoming (st : TStream) (id : ID)
  | incomingEnabled (st : TStream) (id : ID)
  | incomingReady (st : TStream) (id : ID) (ena : Bool)
  | incomingAccepted (st : TStream) (id : ID) (ena : Bool)
  | waitMode (id : ID) (wrapped : Option Ref)
  | waiting (id : ID) (wrapped : Option Ref)
  | bridge (w : Ref)
  | close (w : Ref) (again : ℕ)
  | closeFound (w : Ref) (again : ℕ) (found : Option Ref)
  | closeSelf (w : Ref) (again : ℕ)
  | closeInner (w : Ref) (again : ℕ)
  | reconnect
  | reconnectDial
  | reconnectSwap (conn : ℕ)
  | reconnectRegister
  | reconnectSnapshot
  | reconnectLoop (snap rest : List Ref)
  | reconnectResume (snap : List Ref) (w : Ref) (rest : List Ref) (st : TStream)
  | reconnectDrop (snap : List Ref) (w : Ref) (rest : List Ref)
  | reconnectFound (snap : List Ref) (w : Ref) (rest : List Ref) (found : Option Ref)
  | migrate (w : Ref) (peer : ℕ)
  | migrateOpened (w : Ref) (st : TStream)
  | direct (st : TStream) (id : ID)
  | directFound (w : Ref) (st : TStream)
  | enableP2P

/-- What a step does to the shared state. -/
inductive Effect (ID : Type)
  | nothing
  | openStream
  | newStreamID
  | registerStreamModeWaiter (id : ID)
  | cancelStreamModeWaiter (id : ID)
  | wrapStream (id : ID) (inner : TStream) (dialed : Option ℕ)
  | forget (id : ID)
  | markAbandoned (w : Ref)
  | swapInner (w : Ref) (st : TStream)
  | closeConn
  | newConn
  | setConn (conn : ℕ)
  | enableP2P

/-- What the environment decides at a step: whether a call of the transport succeeds, in which
order a map is iterated. -/
inductive Choice
  | ok
  | err
  | order (ws : List Ref)

variable {ID : Type} [DecidableEq ID]

/-- A wrapper changed in place. -/
def Shared.setWrap (s : Shared ID) (w : Ref) (f : Wrapper ID) : Shared ID :=
  { s with wraps := Function.update s.wraps w f }

def effect : Effect ID → Shared ID → Shared ID
  | .nothing, s => s
  | .openStream, s => { s with nextStream := s.nextStream + 1 }
  | .newStreamID, s => { s with generated := s.generated + 1 }
  | .registerStreamModeWaiter id, s =>
    { s with pendingMode := s.pendingMode.insert id s.nextChan, nextChan := s.nextChan + 1 }
  | .cancelStreamModeWaiter id, s => { s with pendingMode := s.pendingMode.erase id }
  | .wrapStream id inner dialed, s =>
    { s.setWrap s.nextWrap ⟨id, inner, false, dialed⟩ with
      streams := s.streams.insert id s.nextWrap
      nextWrap := s.nextWrap + 1 }
  | .forget id, s => { s with streams := s.streams.erase id }
  | .markAbandoned w, s => s.setWrap w { s.wraps w with abandoned := true }
  | .swapInner w st, s => s.setWrap w { s.wraps w with inner := st }
  | .closeConn, s => { s with closed := s.conn :: s.closed }
  | .newConn, s => { s with nextConn := s.nextConn + 1 }
  | .setConn conn, s => { s with conn := conn }
  | .enableP2P, s => { s with p2pEnabled := true }

/-- `forgetStream` after its lock section: the wrapper it found is marked. -/
def markFound : Option Ref → Effect ID
  | some v => .markAbandoned v
  | none => .nothing

/-- A stream on the current connection, when that is open. -/
def openOn (s : Shared ID) (t : TStream → Task ID) : Option (Task ID × Effect ID) :=
  if s.conn ∈ s.closed then none else some (t ⟨s.conn, s.nextStream⟩, .openStream)

/-- After `WaitForStreamMode`: the provider goes on to `bridge`, the consumer's wait ends. -/
def afterMode : Option Ref → Task ID
  | some w => .bridge w
  | none => .done

/-- `Session.Dial`. -/
def dialNext (gen : ℕ → ID) (s : Shared ID) : Task ID → Choice → Option (Task ID × Effect ID)
  | .dial, .ok => openOn s .dialOpened
  | .dial, .err => some (.done, .nothing)
  | .dialOpened st, .ok => some (.dialNamed st s.generated, .newStreamID)
  | .dialNamed st k, .ok =>
    if (s.streams.lookup (gen k)).isSome then some (.dialOpened st, .nothing)
    else some (.dialFresh st k, .nothing)
  | .dialFresh st k, .ok =>
    if s.p2pEnabled then some (.dialEnabled st k, .nothing)
    else some (.dialReady st k false, .nothing)
  | .dialEnabled st k, .ok => some (.dialReady st k true, .registerStreamModeWaiter (gen k))
  | .dialReady st k _, .ok => some (.dialSent st k, .nothing)
  | .dialReady _ k ena, .err =>
    some (.done, if ena then .cancelStreamModeWaiter (gen k) else .nothing)
  | .dialSent st k, .ok => some (.done, .wrapStream (gen k) st (some k))
  | _, _ => none

/-- `handleIncoming`, from the point where the handler has accepted, and `WaitForStreamMode`. -/
def incomingNext (s : Shared ID) : Task ID → Choice → Option (Task ID × Effect ID)
  | .incoming st id, .ok =>
    if s.p2pEnabled then some (.incomingEnabled st id, .nothing)
    else some (.incomingReady st id false, .nothing)
  | .incomingEnabled st id, .ok =>
    some (.incomingReady st id true, .registerStreamModeWaiter id)
  | .incomingReady st id ena, .ok => some (.incomingAccepted st id ena, .nothing)
  | .incomingReady _ id ena, .err =>
    some (.done, if ena then .cancelStreamModeWaiter id else .nothing)
  | .incomingAccepted st id ena, .ok =>
    some (if ena then .waitMode id (some s.nextWrap) else .bridge s.nextWrap,
      .wrapStream id st none)
  | .waitMode id w, .ok =>
    if (s.pendingMode.lookup id).isSome then some (.waiting id w, .nothing)
    else some (afterMode w, .nothing)
  | .waiting id w, .ok => some (afterMode w, .cancelStreamModeWaiter id)
  -- In forward mode the wrapper is not bridged, so only the deferred `Close` runs.
  | .bridge w, .ok => some (.close w 1, .nothing)
  | .bridge w, .err => some (.close w 0, .nothing)
  | _, _ => none

/-- `ResumableStream.Close`. -/
def closeNext (s : Shared ID) : Task ID → Choice → Option (Task ID × Effect ID)
  | .close w n, .ok =>
    some (.closeFound w n (s.streams.lookup (s.wraps w).id), .forget (s.wraps w).id)
  | .closeFound w n found, .ok => some (.closeSelf w n, markFound found)
  | .closeSelf w n, .ok => some (.closeInner w n, .markAbandoned w)
  | .closeInner _ 0, .ok => some (.done, .nothing)
  | .closeInner w (n + 1), .ok => some (.close w n, .nothing)
  | _, _ => none

/-- `Reconnect`. -/
def reconnectNext (s : Shared ID) : Task ID → Choice → Option (Task ID × Effect ID)
  | .reconnect, .ok => some (.reconnectDial, .closeConn)
  | .reconnectDial, .ok => some (.reconnectSwap s.nextConn, .newConn)
  | .reconnectDial, .err => some (.done, .nothing)
  | .reconnectSwap conn, .ok => some (.reconnectRegister, .setConn conn)
  | .reconnectRegister, .ok => some (.reconnectSnapshot, .nothing)
  | .reconnectRegister, .err => some (.done, .nothing)
  | .reconnectSnapshot, .order ws =>
    if ws.Perm (s.streams.entries.map Sigma.snd) then some (.reconnectLoop ws ws, .nothing)
    else none
  | .reconnectLoop _ [], .ok => some (.done, .nothing)
  | .reconnectLoop snap (w :: rest), .ok => openOn s (.reconnectResume snap w rest)
  | .reconnectLoop snap (w :: rest), .err => some (.reconnectDrop snap w rest, .nothing)
  | .reconnectResume snap w rest st, .ok => some (.reconnectLoop snap rest, .swapInner w st)
  | .reconnectResume snap w rest _, .err => some (.reconnectDrop snap w rest, .nothing)
  | .reconnectDrop snap w rest, .ok =>
    some (.reconnectFound snap w rest (s.streams.lookup (s.wraps w).id),
      .forget (s.wraps w).id)
  | .reconnectFound snap _ rest found, .ok => some (.reconnectLoop snap rest, markFound found)
  | _, _ => none

/-- `MigrateToDirect`, `handleDirectStream` and `EnableP2P`. -/
def promoteNext (s : Shared ID) : Task ID → Choice → Option (Task ID × Effect ID)
  | .migrate w peer, .ok => some (.migrateOpened w ⟨peer, s.nextStream⟩, .openStream)
  | .migrate _ _, .err => some (.done, .nothing)
  | .migrateOpened w st, .ok => some (.done, .swapInner w st)
  | .migrateOpened _ _, .err => some (.done, .nothing)
  | .direct st id, .ok =>
    match s.streams.lookup id with
    | some w => some (.directFound w st, .nothing)
    | none => some (.done, .nothing)
  | .direct _ _, .err => some (.done, .nothing)
  | .directFound w st, .ok => some (.done, .swapInner w st)
  | .directFound _ _, .err => some (.done, .nothing)
  | .enableP2P, .ok => some (.done, .enableP2P)
  | _, _ => none

/-- One step of a goroutine. -/
def next (gen : ℕ → ID) (s : Shared ID) (t : Task ID) (c : Choice) :
    Option (Task ID × Effect ID) :=
  match t with
  | .done => none
  | .dial | .dialOpened _ | .dialNamed _ _ | .dialFresh _ _ | .dialEnabled _ _
  | .dialReady _ _ _ | .dialSent _ _ => dialNext gen s t c
  | .incoming _ _ | .incomingEnabled _ _ | .incomingReady _ _ _ | .incomingAccepted _ _ _
  | .waitMode _ _ | .waiting _ _ | .bridge _ => incomingNext s t c
  | .close _ _ | .closeFound _ _ _ | .closeSelf _ _ | .closeInner _ _ => closeNext s t c
  | .reconnect | .reconnectDial | .reconnectSwap _ | .reconnectRegister | .reconnectSnapshot
  | .reconnectLoop _ _ | .reconnectResume _ _ _ _ | .reconnectDrop _ _ _
  | .reconnectFound _ _ _ _ => reconnectNext s t c
  | .migrate _ _ | .migrateOpened _ _ | .direct _ _ | .directFound _ _ | .enableP2P =>
    promoteNext s t c

/-- Where a goroutine starts: a call of `Dial`, of `Reconnect`, of `Close`, `MigrateToDirect` or
`WaitForStreamMode` on a wrapper that exists, an accepted stream with the id of its first frame. -/
def entry (s : Shared ID) : Task ID → Bool
  | .dial | .reconnect | .incoming _ _ | .direct _ _ | .waitMode _ none | .enableP2P => true
  | .close w _ | .migrate w _ => w < s.nextWrap
  | _ => false

def program (gen : ℕ → ID) : Program (Shared ID) (Task ID) Choice (Effect ID) where
  idle := .done
  entry := entry
  next := next gen
  effect := effect

/-- A session on connection 0, without streams. `ID` has at least the id a placeholder wrapper
carries; no step refers to a wrapper that has not been created. -/
def initial [Inhabited ID] : Shared ID where
  streams := ∅
  pendingMode := ∅
  wraps _ := ⟨default, ⟨0, 0⟩, false, none⟩
  nextWrap := 0
  nextChan := 0
  p2pEnabled := false
  conn := 0
  nextConn := 1
  closed := []
  nextStream := 0
  generated := 0

/-- A session, all goroutines interleaved in any way. -/
def machine [Inhabited ID] (gen : ℕ → ID) :
    Machine (Program.Pool (Shared ID) (Task ID)) (Program.Act (Task ID) Choice) :=
  (program gen).machine initial

/-! ## What a step can do -/

/-- The steps, one constructor for each move of a goroutine, with the guards later proofs use. -/
inductive Moves (gen : ℕ → ID) (s : Shared ID) : Task ID → Task ID → Effect ID → Prop
  | dial : s.conn ∉ s.closed →
      Moves gen s .dial (.dialOpened ⟨s.conn, s.nextStream⟩) .openStream
  | dialFailed : Moves gen s .dial .done .nothing
  | newStreamID {st} : Moves gen s (.dialOpened st) (.dialNamed st s.generated) .newStreamID
  | idTaken {st k} : (s.streams.lookup (gen k)).isSome →
      Moves gen s (.dialNamed st k) (.dialOpened st) .nothing
  | idFresh {st k} : s.streams.lookup (gen k) = none →
      Moves gen s (.dialNamed st k) (.dialFresh st k) .nothing
  | dialWaits {st k} : Moves gen s (.dialFresh st k) (.dialEnabled st k) .nothing
  | dialSplices {st k} : Moves gen s (.dialFresh st k) (.dialReady st k false) .nothing
  | dialRegisters {st k} :
      Moves gen s (.dialEnabled st k) (.dialReady st k true) (.registerStreamModeWaiter (gen k))
  | openStreamSent {st k ena} : Moves gen s (.dialReady st k ena) (.dialSent st k) .nothing
  | openStreamFailed {st k ena} :
      Moves gen s (.dialReady st k ena) .done
        (if ena then .cancelStreamModeWaiter (gen k) else .nothing)
  | dialWraps {st k} : Moves gen s (.dialSent st k) .done (.wrapStream (gen k) st (some k))
  | incomingWaits {st id} : Moves gen s (.incoming st id) (.incomingEnabled st id) .nothing
  | incomingSplices {st id} :
      Moves gen s (.incoming st id) (.incomingReady st id false) .nothing
  | incomingRegisters {st id} :
      Moves gen s (.incomingEnabled st id) (.incomingReady st id true)
        (.registerStreamModeWaiter id)
  | accepted {st id ena} :
      Moves gen s (.incomingReady st id ena) (.incomingAccepted st id ena) .nothing
  | acceptFailed {st id ena} :
      Moves gen s (.incomingReady st id ena) .done
        (if ena then .cancelStreamModeWaiter id else .nothing)
  | incomingWraps {st id ena} :
      Moves gen s (.incomingAccepted st id ena)
        (if ena then .waitMode id (some s.nextWrap) else .bridge s.nextWrap)
        (.wrapStream id st none)
  | waits {id w} : Moves gen s (.waitMode id w) (.waiting id w) .nothing
  | notRegistered {id w} : Moves gen s (.waitMode id w) (afterMode w) .nothing
  | modeKnown {id w} :
      Moves gen s (.waiting id w) (afterMode w) (.cancelStreamModeWaiter id)
  | bridged {w n} : Moves gen s (.bridge w) (.close w n) .nothing
  | close {w n} :
      Moves gen s (.close w n) (.closeFound w n (s.streams.lookup (s.wraps w).id))
        (.forget (s.wraps w).id)
  | closeFound {w n found} : Moves gen s (.closeFound w n found) (.closeSelf w n) (markFound found)
  | closeSelf {w n} : Moves gen s (.closeSelf w n) (.closeInner w n) (.markAbandoned w)
  | closeDone {w} : Moves gen s (.closeInner w 0) .done .nothing
  | closeAgain {w n} : Moves gen s (.closeInner w (n + 1)) (.close w n) .nothing
  | closeConn : Moves gen s .reconnect .reconnectDial .closeConn
  | newConn : Moves gen s .reconnectDial (.reconnectSwap s.nextConn) .newConn
  | reconnectFailed : Moves gen s .reconnectDial .done .nothing
  | swapConn {conn} : Moves gen s (.reconnectSwap conn) .reconnectRegister (.setConn conn)
  | registered : Moves gen s .reconnectRegister .reconnectSnapshot .nothing
  | registerFailed : Moves gen s .reconnectRegister .done .nothing
  | snapshot {ws} : ws.Perm (s.streams.entries.map Sigma.snd) →
      Moves gen s .reconnectSnapshot (.reconnectLoop ws ws) .nothing
  | reconnected {snap} : Moves gen s (.reconnectLoop snap []) .done .nothing
  | resume {snap w rest} : s.conn ∉ s.closed →
      Moves gen s (.reconnectLoop snap (w :: rest))
        (.reconnectResume snap w rest ⟨s.conn, s.nextStream⟩) .openStream
  | resumeUnopened {snap w rest} :
      Moves gen s (.reconnectLoop snap (w :: rest)) (.reconnectDrop snap w rest) .nothing
  | resumed {snap w rest st} :
      Moves gen s (.reconnectResume snap w rest st) (.reconnectLoop snap rest) (.swapInner w st)
  | resumeFailed {snap w rest st} :
      Moves gen s (.reconnectResume snap w rest st) (.reconnectDrop snap w rest) .nothing
  | drop {snap w rest} :
      Moves gen s (.reconnectDrop snap w rest)
        (.reconnectFound snap w rest (s.streams.lookup (s.wraps w).id))
        (.forget (s.wraps w).id)
  | dropFound {snap w rest found} :
      Moves gen s (.reconnectFound snap w rest found) (.reconnectLoop snap rest)
        (markFound found)
  | migrate {w peer} :
      Moves gen s (.migrate w peer) (.migrateOpened w ⟨peer, s.nextStream⟩) .openStream
  | migrateFailed {w peer} : Moves gen s (.migrate w peer) .done .nothing
  | migrated {w st} : Moves gen s (.migrateOpened w st) .done (.swapInner w st)
  | resumeUnsent {w st} : Moves gen s (.migrateOpened w st) .done .nothing
  | direct {st id w} : s.streams.lookup id = some w →
      Moves gen s (.direct st id) (.directFound w st) .nothing
  | directFailed {st id} : Moves gen s (.direct st id) .done .nothing
  | directMigrated {w st} : Moves gen s (.directFound w st) .done (.swapInner w st)
  | retransmitFailed {w st} : Moves gen s (.directFound w st) .done .nothing
  | enableP2P : Moves gen s .enableP2P .done .enableP2P

variable {gen : ℕ → ID} {s : Shared ID} {t t' : Task ID} {c : Choice} {e : Effect ID}

omit [DecidableEq ID] in
theorem openOn_cases {f : TStream → Task ID} (h : openOn s f = some (t', e)) :
    s.conn ∉ s.closed ∧ t' = f ⟨s.conn, s.nextStream⟩ ∧ e = .openStream := by
  unfold openOn at h
  split at h
  · cases h
  · rename_i hc
    cases h
    exact ⟨hc, rfl, rfl⟩

theorem dialNext_moves (h : dialNext gen s t c = some (t', e)) : Moves gen s t t' e := by
  unfold dialNext at h
  split at h
  · obtain ⟨hc, rfl, rfl⟩ := openOn_cases h
    exact .dial hc
  · cases h; exact .dialFailed
  · cases h; exact .newStreamID
  · split at h
    · rename_i hk
      cases h; exact .idTaken hk
    · rename_i hk
      cases h; exact .idFresh (by simpa using hk)
  · split at h
    · cases h; exact .dialWaits
    · cases h; exact .dialSplices
  · cases h; exact .dialRegisters
  · cases h; exact .openStreamSent
  · cases h; exact .openStreamFailed
  · cases h; exact .dialWraps
  · cases h

theorem incomingNext_moves (h : incomingNext s t c = some (t', e)) : Moves gen s t t' e := by
  unfold incomingNext at h
  split at h
  · split at h
    · cases h; exact .incomingWaits
    · cases h; exact .incomingSplices
  · cases h; exact .incomingRegisters
  · cases h; exact .accepted
  · cases h; exact .acceptFailed
  · cases h; exact .incomingWraps
  · split at h
    · cases h; exact .waits
    · cases h; exact .notRegistered
  · cases h; exact .modeKnown
  · cases h; exact .bridged
  · cases h; exact .bridged
  · cases h

theorem closeNext_moves (h : closeNext s t c = some (t', e)) : Moves gen s t t' e := by
  unfold closeNext at h
  split at h
  · cases h; exact .close
  · cases h; exact .closeFound
  · cases h; exact .closeSelf
  · cases h; exact .closeDone
  · cases h; exact .closeAgain
  · cases h

theorem reconnectNext_moves (h : reconnectNext s t c = some (t', e)) : Moves gen s t t' e := by
  unfold reconnectNext at h
  split at h
  · cases h; exact .closeConn
  · cases h; exact .newConn
  · cases h; exact .reconnectFailed
  · cases h; exact .swapConn
  · cases h; exact .registered
  · cases h; exact .registerFailed
  · split at h
    · rename_i hws
      cases h; exact .snapshot hws
    · cases h
  · cases h; exact .reconnected
  · obtain ⟨hc, rfl, rfl⟩ := openOn_cases h
    exact .resume hc
  · cases h; exact .resumeUnopened
  · cases h; exact .resumed
  · cases h; exact .resumeFailed
  · cases h; exact .drop
  · cases h; exact .dropFound
  · cases h

theorem promoteNext_moves (h : promoteNext s t c = some (t', e)) : Moves gen s t t' e := by
  unfold promoteNext at h
  split at h
  · cases h; exact .migrate
  · cases h; exact .migrateFailed
  · cases h; exact .migrated
  · cases h; exact .resumeUnsent
  · split at h
    · rename_i hw
      cases h; exact .direct hw
    · cases h; exact .directFailed
  · cases h; exact .directFailed
  · cases h; exact .directMigrated
  · cases h; exact .retransmitFailed
  · cases h; exact .enableP2P
  · cases h

/-- Every step is one of the moves. -/
theorem next_moves (h : next gen s t c = some (t', e)) : Moves gen s t t' e := by
  unfold next at h
  split at h
  · cases h
  all_goals first
    | exact dialNext_moves h
    | exact incomingNext_moves h
    | exact closeNext_moves h
    | exact reconnectNext_moves h
    | exact promoteNext_moves h

/-! ## What no step does

Wrappers are only ever added, and a wrapper keeps its id. -/

theorem effect_nextWrap_le (e : Effect ID) (s : Shared ID) :
    s.nextWrap ≤ (effect e s).nextWrap := by
  cases e <;> simp [effect, Shared.setWrap]

omit [DecidableEq ID] in
/-- A change in place that keeps a part of the wrapper keeps it for every wrapper. -/
theorem setWrap_part {β : Type} (part : Wrapper ID → β) {v : Ref} {f : Wrapper ID}
    (hf : part f = part (s.wraps v)) (w : Ref) :
    part ((s.setWrap v f).wraps w) = part (s.wraps w) := by
  rcases eq_or_ne w v with rfl | hw
  · simpa [Shared.setWrap] using hf
  · simp [Shared.setWrap, hw]

theorem effect_wraps_id (e : Effect ID) {w : Ref} (hw : w < s.nextWrap) :
    ((effect e s).wraps w).id = (s.wraps w).id := by
  cases e with
  | wrapStream id inner dialed => simp [effect, Shared.setWrap, Nat.ne_of_lt hw]
  | markAbandoned v => exact setWrap_part Wrapper.id (by rfl) w
  | swapInner v st => exact setWrap_part Wrapper.id (by rfl) w
  | _ => rfl

theorem effect_wraps_dialed (e : Effect ID) {w : Ref} (hw : w < s.nextWrap) :
    ((effect e s).wraps w).dialed = (s.wraps w).dialed := by
  cases e with
  | wrapStream id inner dialed => simp [effect, Shared.setWrap, Nat.ne_of_lt hw]
  | markAbandoned v => exact setWrap_part Wrapper.dialed (by rfl) w
  | swapInner v st => exact setWrap_part Wrapper.dialed (by rfl) w
  | _ => rfl

/-- A wrapper that was not there before is the one `wrapStream` made. -/
theorem effect_wraps_new (e : Effect ID) {v : Ref} (hv : v < (effect e s).nextWrap) :
    v < s.nextWrap ∨
      ∃ id st d, e = .wrapStream id st d ∧ (effect e s).wraps v = ⟨id, st, false, d⟩ := by
  cases e with
  | wrapStream id st d =>
    rcases Nat.lt_succ_iff_lt_or_eq.mp hv with hlt | rfl
    · exact .inl hlt
    · exact .inr ⟨id, st, d, rfl, by simp [effect, Shared.setWrap]⟩
  | _ => exact .inl hv

/-! ## The table names wrappers by their own id -/

/-- An entry of `s.streams` is a wrapper that exists, under the id it was made with. -/
def Keyed (s : Shared ID) : Prop :=
  ∀ id v, s.streams.lookup id = some v → v < s.nextWrap ∧ (s.wraps v).id = id

theorem effect_keyed (e : Effect ID) (h : Keyed s) : Keyed (effect e s) := by
  -- The entries of the table come from the table before, but for the one `wrapStream` makes.
  have hold : ∀ id v, s.streams.lookup id = some v →
      v < (effect e s).nextWrap ∧ ((effect e s).wraps v).id = id := by
    intro id v hv
    obtain ⟨hlt, hid⟩ := h id v hv
    exact ⟨lt_of_lt_of_le hlt (effect_nextWrap_le e s), (effect_wraps_id e hlt).trans hid⟩
  cases e with
  | wrapStream id inner dialed =>
    have hnew : s.nextWrap < (effect (.wrapStream id inner dialed) s).nextWrap ∧
        ((effect (.wrapStream id inner dialed) s).wraps s.nextWrap).id = id := by
      simp [effect, Shared.setWrap]
    exact forall_lookup_insert hold hnew
  | forget id => exact forall_lookup_erase hold
  | _ => exact hold

theorem reach_keyed [Inhabited ID] {p : Program.Pool (Shared ID) (Task ID)}
    (h : (machine gen).Reach p) : Keyed p.shared := by
  have hs : (program gen).Sound initial (fun _ _ _ => true) Keyed (fun _ _ => True)
      (fun _ _ => True) :=
    { init := by intro id v hv; simp [initial] at hv
      idle := ⟨trivial, trivial⟩
      start := fun _ _ => trivial
      start_other := fun _ _ => ⟨trivial, trivial⟩
      step := fun hG _ _ _ => ⟨effect_keyed _ hG, trivial⟩
      other := fun _ _ _ _ _ _ => ⟨trivial, trivial, trivial⟩ }
  exact (Program.invariant_reach hs h).shared

end OutRelayAgent.Session
