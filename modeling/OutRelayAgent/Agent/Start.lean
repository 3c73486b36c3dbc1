import OutRelayAgent.Lib.Machine
import OutRelayAgent.P2p.Gather

/-!
# Starting an agent

Model of `main` (`main.go:52-322`), one step for each call that can fail. It dials a relay over
QUIC, from the socket of `--p2p-listen` if there is one, and if that fails over TCP; it exposes a
service, listens for direct connections, gathers candidates, and starts the reader of the control
stream and the goroutines; it then stays in `RunWithReconnect`. `startInterceptor` and `Expose` are
one call each here (`Intercept/Dns.lean`, `Session/Attempts.lean`).

`calls` records the calls with their success. No step reads it.

* `start_wiring`: calls are made at most once and in one order. `EnableP2P` starts the reader of the
  control stream; of the calls after it only `RunWithReconnect` reads that stream too
  (`Session/Register.lean`), and of those before it only a `QueryServerReflexive` that failed may
  have left a goroutine that does (`Control/Reflexive.lean`). Then the session, the connectivity
  check, the listener and the candidates belong together: all of them are on the socket of
  `--p2p-listen`, or none is.
* `exits_leave_session`: the session is closed when `RunWithReconnect` returns for the end of the
  context. Whatever else ends `main` does so by `os.Exit`, which runs no deferred call.
-/

namespace OutRelayAgent.Start

open Lib P2p

section Model

/-- The flags that are read here, with their defaults. -/
structure Flags where
  relay : String := "127.0.0.1:7443"
  relayTCP : String := ""
  cert : String := ""
  key : String := ""
  ca : String := ""
  uri : String := ""
  exposeService : String := ""
  exposeTarget : String := ""
  p2pListen : String := ""
  p2pAdvertise : String := ""
  version : Bool := false
  consumes : List String := []

/-- The library's functions. -/
structure Host where
  trimSpace : String → String
  /-- `identity.Parse` -/
  parseURI : String → Bool
  /-- `netip.ParseAddrPort` -/
  parseAddrPort : String → Option Endpoint
  net : Netip Addr

/-- `SharedTransport`, `DefaultDialer`, `TCPDialer` -/
inductive Dialer
  | shared
  | default
  | tcp
  deriving DecidableEq

inductive Call
  | loadClientTLS
  | newSharedTransport (addr : String)
  | dialAnyHappy (d : Dialer) (addrs : List String)
  | closeTransport
  /-- `loadServerTLS`, for forward mode. -/
  | loadForwardTLS
  | setForwardServerTLS
  | expose (name localAddr : String)
  | setDialer
  /-- `loadServerTLS`, for the listener. -/
  | loadServerTLS
  | listen
  | queryServerReflexive
  | setLocalCandidates (cs : List PBCandidate)
  | enableP2P
  | acceptDirect
  | startInterceptor
  | runConsumer
  | runWithReconnect (addrs : List String)
  | closeInterceptor
  | closeListener
  | closeSession

/-- The call `main` is in. -/
inductive Phase
  | parse
  | clientTLS
  | bind
  | dial (d : Dialer)
  | dialTCP
  | forwardTLS
  | expose
  | serverTLS
  | listen
  | query (port : UInt16) (ifaces : Except String (List IfaceAddr))
  | enable
  | intercept
  | run
  | returned
  /-- `os.Exit` -/
  | exited (code : ℕ)

inductive Choice
  | ok
  | err
  /-- The port of the listener, and what `net.InterfaceAddrs` returns. -/
  | listening (port : UInt16) (ifaces : Except String (List IfaceAddr))
  /-- What the relay sees. -/
  | observed (e : Endpoint)

structure World where
  phase : Phase
  /-- `sharedTransport` is not nil. -/
  sharedTransport : Bool
  /-- The dialler of `sess`, which `Reconnect` uses too. -/
  session : Option Dialer
  reconnectAddrs : List String
  /-- The engine has `sharedTransport` for its dialler. -/
  engineShared : Bool
  listener : Option UInt16
  localCandidates : List PBCandidate
  interceptor : Bool
  calls : List (Call × Bool)

/-- `strings.Split` at commas, and `strings.TrimSpace`. -/
def Host.split (h : Host) (s : String) : List String :=
  (s.toList.splitOn ',').map fun part => h.trimSpace (String.ofList part)

/-- The endpoints for a dialler. -/
def Host.endpoints (h : Host) (f : Flags) : Dialer → List String
  | .tcp => h.split f.relayTCP
  | _ => h.split f.relay

def World.did (w : World) (c : Call) (ok : Bool) : World := { w with calls := w.calls ++ [(c, ok)] }

/-- A call that is made if `b`. -/
def World.didIf (w : World) (b : Bool) (c : Call) : World :=
  { w with calls := w.calls ++ if b then [(c, true)] else [] }

def World.goto (w : World) (p : Phase) : World := { w with phase := p }

/-- After a failed call. -/
def World.exits (w : World) (c : Call) : World := (w.did c false).goto (.exited 1)

/-- `session.DialAnyHappy` has returned a session. -/
def dialled (h : Host) (f : Flags) (w : World) (d : Dialer) : World :=
  { (w.did (.dialAnyHappy d (h.endpoints f d)) true).goto .forwardTLS with
    session := some d
    reconnectAddrs := h.endpoints f d }

/-- QUIC has failed. -/
def fallback (h : Host) (f : Flags) (w : World) (d : Dialer) : World :=
  let w := w.did (.dialAnyHappy d (h.endpoints f d)) false
  if f.relayTCP = "" then w.goto (.exited 1)
  else { (w.didIf w.sharedTransport .closeTransport).goto .dialTCP with sharedTransport := false }

/-- The engine, up to the listener. -/
def newEngine (f : Flags) (w : World) : World :=
  let w := { w.didIf w.sharedTransport .setDialer with engineShared := w.sharedTransport }
  if f.p2pListen ≠ "" && w.sharedTransport then w.goto .serverTLS else w.goto .enable

def exposeService (f : Flags) (w : World) : World :=
  if f.exposeService = "" then newEngine f w
  else if f.exposeTarget = "" then w.goto (.exited 2)
  else w.goto .expose

/-- The candidates are complete. -/
def register (h : Host) (w : World) (cs : List (Candidate Addr)) : World :=
  { (w.did (.setLocalCandidates (toPBCandidates h.net cs)) true).goto .enable with
    localCandidates := toPBCandidates h.net cs }

/-- `QueryServerReflexive` has returned. -/
def gather (h : Host) (f : Flags) (w : World) (port : UInt16)
    (ifaces : Except String (List IfaceAddr)) (srflx : Option Endpoint) : World :=
  let w := w.did .queryServerReflexive srflx.isSome
  if f.p2pAdvertise = "" then register h w (mainLocals ifaces port srflx none)
  else
    match h.parseAddrPort f.p2pAdvertise with
    | none => w.goto (.exited 2)
    | some adv => register h w (mainLocals ifaces port srflx (some adv))

def enableP2P (f : Flags) (w : World) : World :=
  let w := (w.did .enableP2P true).didIf w.listener.isSome .acceptDirect
  if f.consumes = [] then w.goto .run else w.goto .intercept

/-- The deferred calls. -/
def deferred (w : World) : World :=
  (((w.didIf w.interceptor .closeInterceptor).didIf w.listener.isSome .closeListener).did
    .closeSession true).goto .returned

def parse (h : Host) (f : Flags) (w : World) : World :=
  if f.version then w.goto .returned
  else if f.cert = "" ∨ f.key = "" ∨ f.ca = "" ∨ f.uri = "" then w.goto (.exited 2)
  else if !h.parseURI f.uri then w.goto (.exited 2)
  else w.goto .clientTLS

def step (h : Host) (f : Flags) (w : World) (c : Choice) : Option World :=
  match w.phase, c with
  | .parse, .ok => some (parse h f w)
  | .clientTLS, .ok =>
    if f.p2pListen ≠ "" then some ((w.did .loadClientTLS true).goto .bind)
    else some ((w.did .loadClientTLS true).goto (.dial .default))
  | .clientTLS, .err => some (w.exits .loadClientTLS)
  | .bind, .ok =>
    some { (w.did (.newSharedTransport f.p2pListen) true).goto (.dial .shared) with
      sharedTransport := true }
  | .bind, .err => some (w.exits (.newSharedTransport f.p2pListen))
  | .dial d, .ok => some (dialled h f w d)
  | .dial d, .err => some (fallback h f w d)
  | .dialTCP, .ok => some (dialled h f w .tcp)
  | .dialTCP, .err => some (w.exits (.dialAnyHappy .tcp (h.endpoints f .tcp)))
  | .forwardTLS, .ok =>
    some (exposeService f ((w.did .loadForwardTLS true).did .setForwardServerTLS true))
  | .forwardTLS, .err => some (w.exits .loadForwardTLS)
  | .expose, .ok => some (newEngine f (w.did (.expose f.exposeService f.exposeTarget) true))
  | .expose, .err => some (w.exits (.expose f.exposeService f.exposeTarget))
  | .serverTLS, .ok => some ((w.did .loadServerTLS true).goto .listen)
  | .serverTLS, .err => some (w.exits .loadServerTLS)
  | .listen, .listening port ifaces =>
    some { (w.did .listen true).goto (.query port ifaces) with listener := some port }
  | .listen, .err => some (w.exits .listen)
  | .query port ifaces, .observed e => some (gather h f w port ifaces (some e))
  | .query port ifaces, .err => some (gather h f w port ifaces none)
  | .enable, .ok => some (enableP2P f w)
  | .intercept, .ok =>
    some { ((w.did .startInterceptor true).did .runConsumer true).goto .run with
      interceptor := true }
  | .intercept, .err => some (w.exits .startInterceptor)
  -- `nil`, or that the context was cancelled
  | .run, .ok => some (deferred (w.did (.runWithReconnect w.reconnectAddrs) true))
  | .run, .err => some (w.exits (.runWithReconnect w.reconnectAddrs))
  | _, _ => none

def program (h : Host) (f : Flags) : Machine World Choice where
  init := ⟨.parse, false, none, [], false, none, [], false, []⟩
  step := step h f

end Model

/-! ## The order of the calls -/

section Order

/-- The place of a call in the order. -/
def Call.rank : Call → ℕ
  | .loadClientTLS => 0
  | .newSharedTransport _ => 1
  | .dialAnyHappy .shared _ | .dialAnyHappy .default _ => 2
  | .closeTransport => 3
  | .dialAnyHappy .tcp _ => 4
  | .loadForwardTLS => 5
  | .setForwardServerTLS => 6
  | .expose _ _ => 7
  | .setDialer => 8
  | .loadServerTLS => 9
  | .listen => 10
  | .queryServerReflexive => 11
  | .setLocalCandidates _ => 12
  | .enableP2P => 13
  | .acceptDirect => 14
  | .startInterceptor => 15
  | .runConsumer => 16
  | .runWithReconnect _ => 17
  | .closeInterceptor => 18
  | .closeListener => 19
  | .closeSession => 20

/-- All calls before a phase are of a lower rank. -/
def Phase.rank : Phase → ℕ
  | .parse | .clientTLS => 0
  | .bind => 1
  | .dial _ => 2
  | .dialTCP => 4
  | .forwardTLS => 5
  | .expose => 7
  | .serverTLS => 9
  | .listen => 10
  | .query _ _ => 11
  | .enable => 13
  | .intercept => 15
  | .run => 17
  -- no deferred call
  | .exited _ => 18
  | .returned => 21

/-- Calls of ranks below `n`, in their order and none of them twice. -/
structure InOrder (calls : List (Call × Bool)) (n : ℕ) : Prop where
  pairwise : calls.Pairwise fun a b => a.1.rank < b.1.rank
  below : ∀ c ∈ calls, c.1.rank < n

variable {calls : List (Call × Bool)} {m n : ℕ}

theorem inOrder_nil : InOrder [] n := ⟨List.Pairwise.nil, fun c hc => by cases hc⟩

theorem InOrder.mono (h : InOrder calls m) (hle : m ≤ n) : InOrder calls n :=
  ⟨h.pairwise, fun c hc => Nat.lt_of_lt_of_le (h.below c hc) hle⟩

theorem InOrder.did (h : InOrder calls m) (c : Call) (ok : Bool) (hc : m ≤ c.rank) :
    InOrder (calls ++ [(c, ok)]) (c.rank + 1) := by
  constructor
  · rw [List.pairwise_append]
    refine ⟨h.pairwise, List.pairwise_singleton _ _, fun a ha b hb => ?_⟩
    rw [List.mem_singleton.mp hb]
    exact Nat.lt_of_lt_of_le (h.below a ha) hc
  · intro a ha
    rcases List.mem_append.mp ha with ha | ha
    · exact Nat.lt_succ_of_lt (Nat.lt_of_lt_of_le (h.below a ha) hc)
    · rw [List.mem_singleton.mp ha]
      exact Nat.lt_succ_self _

theorem InOrder.didIf {w : World} (h : InOrder w.calls m) (b : Bool) (c : Call)
    (hc : m ≤ c.rank) : InOrder (w.didIf b c).calls (c.rank + 1) := by
  cases b
  · have hcalls : (w.didIf false c).calls = w.calls := List.append_nil _
    rw [hcalls]
    exact h.mono (Nat.le_succ_of_le hc)
  · exact h.did c true hc

theorem InOrder.goto {w : World} (h : InOrder w.calls m) (p : Phase) (hle : m ≤ p.rank) :
    InOrder (w.goto p).calls (w.goto p).phase.rank :=
  h.mono hle

/-- After a failed call. -/
theorem InOrder.exits {w : World} (h : InOrder w.calls m) (c : Call) (hc : m ≤ c.rank)
    (hlt : c.rank < 18) : InOrder (w.exits c).calls (w.exits c).phase.rank :=
  (h.did c false hc).mono hlt

theorem order_newEngine {f : Flags} {w : World} (h : InOrder w.calls 8) :
    InOrder (newEngine f w).calls (newEngine f w).phase.rank := by
  have hdid := h.didIf w.sharedTransport .setDialer (Nat.le_refl _)
  unfold newEngine
  dsimp only
  split
  · exact hdid.goto .serverTLS (by decide)
  · exact hdid.goto .enable (by decide)

theorem order_gather {h : Host} {f : Flags} {w : World} {port : UInt16}
    {ifaces : Except String (List IfaceAddr)} (srflx : Option Endpoint)
    (ho : InOrder w.calls 11) :
    InOrder (gather h f w port ifaces srflx).calls
      (gather h f w port ifaces srflx).phase.rank := by
  have hdid := ho.did .queryServerReflexive srflx.isSome (Nat.le_refl _)
  unfold gather
  dsimp only
  split
  · exact hdid.did (.setLocalCandidates _) true (Nat.le_refl _)
  · split
    · exact InOrder.goto (w := w.did .queryServerReflexive srflx.isSome) hdid (.exited 2)
        (by decide)
    · exact hdid.did (.setLocalCandidates _) true (Nat.le_refl _)

theorem order_enableP2P {f : Flags} {w : World} (h : InOrder w.calls 13) :
    InOrder (enableP2P f w).calls (enableP2P f w).phase.rank := by
  have hdid : InOrder (w.did .enableP2P true).calls 14 := h.did .enableP2P true (Nat.le_refl _)
  have hthen := hdid.didIf w.listener.isSome .acceptDirect (Nat.le_refl _)
  unfold enableP2P
  dsimp only
  split
  · exact hthen.goto .run (by decide)
  · exact hthen.goto .intercept (by decide)

theorem order_deferred {w : World} (h : InOrder w.calls 18) :
    InOrder (deferred w).calls (deferred w).phase.rank := by
  have hfirst := h.didIf w.interceptor .closeInterceptor (Nat.le_refl _)
  have hsecond := hfirst.didIf w.listener.isSome .closeListener (Nat.le_refl _)
  exact hsecond.did .closeSession true (Nat.le_refl _)

end Order

/-! ## What belongs together -/

section Wiring

variable {h : Host} {f : Flags} {w w' : World} {d : Dialer}

/-- The session is up. -/
structure Dialled (h : Host) (f : Flags) (w : World) (d : Dialer) : Prop where
  session : w.session = some d
  socket : w.sharedTransport = decide (d = .shared)
  addrs : w.reconnectAddrs = h.endpoints f d
  shared : d = .shared → f.p2pListen ≠ ""
  default : d = .default → f.p2pListen = ""
  /-- TCP is for when QUIC has failed. -/
  tcp : d = .tcp → f.relayTCP ≠ "" ∧
    ∃ d', d' ≠ .tcp ∧ (Call.dialAnyHappy d' (h.endpoints f d'), false) ∈ w.calls

/-- Nothing is on the socket but the session. -/
structure Bare (w : World) : Prop where
  engine : w.engineShared = false
  listener : w.listener = none
  candidates : w.localCandidates = []

/-- All that is on the socket. -/
structure Wired (h : Host) (f : Flags) (w : World) (d : Dialer) : Prop
    extends Dialled h f w d where
  engine : w.engineShared = decide (d = .shared)
  listens : d = .shared → ∃ port ifaces srflx adv, w.listener = some port ∧
    w.localCandidates = toPBCandidates h.net (mainLocals (ε := String) ifaces port srflx adv)
  silent : d ≠ .shared → w.listener = none ∧ w.localCandidates = []

/-- The deferred calls have been made. -/
structure Closed (w : World) : Prop where
  session : (Call.closeSession, true) ∈ w.calls
  listener : w.listener.isSome = true → (Call.closeListener, true) ∈ w.calls
  interceptor : w.interceptor = true → (Call.closeInterceptor, true) ∈ w.calls

/-- What holds in a phase. -/
def Stands (h : Host) (f : Flags) (w : World) : Prop :=
  match w.phase with
  | .parse | .clientTLS => w.session = none ∧ w.sharedTransport = false ∧ Bare w
  | .bind => f.p2pListen ≠ "" ∧ Bare w
  | .dial .shared => f.p2pListen ≠ "" ∧ w.sharedTransport = true ∧ Bare w
  | .dial .default => f.p2pListen = "" ∧ w.sharedTransport = false ∧ Bare w
  | .dial .tcp => False
  | .dialTCP => f.relayTCP ≠ "" ∧ w.sharedTransport = false ∧ Bare w ∧
      ∃ d', d' ≠ .tcp ∧ (Call.dialAnyHappy d' (h.endpoints f d'), false) ∈ w.calls
  | .forwardTLS | .expose => ∃ d, Dialled h f w d ∧ Bare w
  | .serverTLS | .listen => Dialled h f w .shared ∧ w.engineShared = true
  | .query port _ => Dialled h f w .shared ∧ w.engineShared = true ∧ w.listener = some port
  | .enable | .intercept | .run => ∃ d, Wired h f w d
  | .returned => w.session = none ∨ Closed w
  | .exited _ => True

structure Inv (h : Host) (f : Flags) (w : World) : Prop where
  order : InOrder w.calls w.phase.rank
  stands : Stands h f w

/-- Nothing else of the session is changed later. -/
theorem Dialled.keep (hd : Dialled h f w d) (hsession : w'.session = w.session)
    (hsocket : w'.sharedTransport = w.sharedTransport)
    (haddrs : w'.reconnectAddrs = w.reconnectAddrs) (hcalls : w.calls ⊆ w'.calls) :
    Dialled h f w' d where
  session := hsession.trans hd.session
  socket := hsocket.trans hd.socket
  addrs := haddrs.trans hd.addrs
  shared := hd.shared
  default := hd.default
  tcp htcp := by
    obtain ⟨hrelay, d', hne, hmem⟩ := hd.tcp htcp
    exact ⟨hrelay, d', hne, hcalls hmem⟩

theorem subset_did (w : World) (c : Call) (ok : Bool) : w.calls ⊆ (w.did c ok).calls :=
  List.subset_append_left _ _

theorem subset_didIf (w : World) (b : Bool) (c : Call) : w.calls ⊆ (w.didIf b c).calls :=
  List.subset_append_left _ _

theorem stands_newEngine (hd : Dialled h f w d) (hb : Bare w) : Stands h f (newEngine f w) := by
  have hcalls := subset_didIf w w.sharedTransport .setDialer
  unfold newEngine
  dsimp only
  split
  · rename_i hlisten
    have hsocket : w.sharedTransport = true := (Bool.and_eq_true_iff.mp hlisten).2
    obtain rfl : d = .shared := of_decide_eq_true (hd.socket.symm.trans hsocket)
    exact ⟨hd.keep rfl rfl rfl hcalls, hsocket⟩
  · rename_i hnot
    have hne : d ≠ .shared := by
      rintro rfl
      exact hnot (Bool.and_eq_true_iff.mpr ⟨decide_eq_true (hd.shared rfl), hd.socket⟩)
    exact ⟨d, hd.keep rfl rfl rfl hcalls, hd.socket, fun hs => absurd hs hne,
      fun _ => ⟨hb.listener, hb.candidates⟩⟩

theorem stands_exposeService (hd : Dialled h f w d) (hb : Bare w) :
    Stands h f (exposeService f w) := by
  unfold exposeService
  split
  · exact stands_newEngine hd hb
  · split
    · trivial
    · exact ⟨d, hd.keep rfl rfl rfl (List.Subset.refl _), ⟨hb.engine, hb.listener, hb.candidates⟩⟩

theorem stands_fallback (hne : d ≠ .tcp) (hb : Bare w) : Stands h f (fallback h f w d) := by
  unfold fallback
  dsimp only
  split
  · trivial
  · rename_i hrelay
    refine ⟨hrelay, rfl, ⟨hb.engine, hb.listener, hb.candidates⟩, d, hne, ?_⟩
    exact subset_didIf _ _ _ (List.mem_append_right _ (List.mem_singleton_self _))

theorem stands_gather {port : UInt16} {ifaces : Except String (List IfaceAddr)}
    (srflx : Option Endpoint) (hd : Dialled h f w .shared) (he : w.engineShared = true)
    (hl : w.listener = some port) : Stands h f (gather h f w port ifaces srflx) := by
  have hcalls : ∀ c : Call,
      w.calls ⊆ ((w.did .queryServerReflexive srflx.isSome).did c true).calls :=
    fun c => List.Subset.trans (subset_did w _ _) (subset_did _ c true)
  unfold gather
  dsimp only
  split
  · exact ⟨.shared, hd.keep rfl rfl rfl (hcalls _), he,
      fun _ => ⟨port, ifaces, srflx, none, hl, rfl⟩, fun hne => absurd rfl hne⟩
  · split
    · trivial
    · rename_i adv _
      exact ⟨.shared, hd.keep rfl rfl rfl (hcalls _), he,
        fun _ => ⟨port, ifaces, srflx, some adv, hl, rfl⟩, fun hne => absurd rfl hne⟩

/-- Only calls are added. -/
theorem Wired.keep (hw : Wired h f w d) (hsession : w'.session = w.session)
    (hsocket : w'.sharedTransport = w.sharedTransport)
    (haddrs : w'.reconnectAddrs = w.reconnectAddrs) (hengine : w'.engineShared = w.engineShared)
    (hlistener : w'.listener = w.listener) (hlocals : w'.localCandidates = w.localCandidates)
    (hcalls : w.calls ⊆ w'.calls) : Wired h f w' d where
  toDialled := hw.toDialled.keep hsession hsocket haddrs hcalls
  engine := hengine.trans hw.engine
  listens hs := by
    rw [hlistener, hlocals]
    exact hw.listens hs
  silent hs := by
    rw [hlistener, hlocals]
    exact hw.silent hs

theorem stands_enableP2P (hw : Wired h f w d) : Stands h f (enableP2P f w) := by
  have hcalls : w.calls ⊆
      ((w.did .enableP2P true).didIf w.listener.isSome .acceptDirect).calls :=
    List.Subset.trans (subset_did w _ _) (subset_didIf _ _ _)
  unfold enableP2P
  dsimp only
  split
  · exact ⟨d, hw.keep rfl rfl rfl rfl rfl rfl hcalls⟩
  · exact ⟨d, hw.keep rfl rfl rfl rfl rfl rfl hcalls⟩

theorem closed_deferred (w : World) : Closed (deferred w) := by
  refine ⟨List.mem_append_right _ (List.mem_singleton_self _), fun hl => ?_, fun hi => ?_⟩
  · refine List.mem_append_left _ (List.mem_append_right _ ?_)
    have hl : w.listener.isSome = true := hl
    rw [if_pos (by exact hl)]
    exact List.mem_singleton_self _
  · refine List.mem_append_left _ (List.mem_append_left _ (List.mem_append_right _ ?_))
    have hi : w.interceptor = true := hi
    rw [if_pos hi]
    exact List.mem_singleton_self _

theorem inv_parse (hi : Inv h f w) (hp : w.phase = .parse) : Inv h f (parse h f w) := by
  obtain ⟨horder, hstands⟩ := hi
  unfold Stands at hstands
  rw [hp] at horder hstands
  obtain ⟨hsession, hsocket, hb⟩ := hstands
  unfold parse
  split
  · exact ⟨horder.goto .returned (by decide), .inl hsession⟩
  · split
    · exact ⟨horder.goto (.exited 2) (by decide), trivial⟩
    · split
      · exact ⟨horder.goto (.exited 2) (by decide), trivial⟩
      · exact ⟨horder.goto .clientTLS (by decide), hsession, hsocket, hb.engine, hb.listener,
          hb.candidates⟩

/-- `DialAnyHappy` over QUIC. -/
theorem order_dialAnyHappy (horder : InOrder w.calls 2) (hne : d ≠ .tcp) (addrs : List String)
    (ok : Bool) : InOrder (w.did (.dialAnyHappy d addrs) ok).calls 3 := by
  cases d with
  | tcp => exact absurd rfl hne
  | shared => exact horder.did (.dialAnyHappy .shared addrs) ok (Nat.le_refl _)
  | default => exact horder.did (.dialAnyHappy .default addrs) ok (Nat.le_refl _)

theorem inv_dialled (horder : InOrder w.calls 2) (hne : d ≠ .tcp) (hb : Bare w)
    (hsocket : w.sharedTransport = decide (d = .shared)) (hshared : d = .shared → f.p2pListen ≠ "")
    (hdefault : d = .default → f.p2pListen = "") : Inv h f (dialled h f w d) := by
  refine ⟨?_, d, ⟨rfl, hsocket, rfl, hshared, hdefault, fun htcp => absurd htcp hne⟩,
    ⟨hb.engine, hb.listener, hb.candidates⟩⟩
  exact (order_dialAnyHappy horder hne _ true).goto .forwardTLS (by decide)

theorem inv_fallback (horder : InOrder w.calls 2) (hne : d ≠ .tcp) (hb : Bare w) :
    Inv h f (fallback h f w d) := by
  refine ⟨?_, stands_fallback hne hb⟩
  have hdid := order_dialAnyHappy horder hne (h.endpoints f d) false
  unfold fallback
  dsimp only
  split
  · exact hdid.goto (.exited 1) (by decide)
  · exact hdid.didIf w.sharedTransport .closeTransport (Nat.le_refl _)

/-- The dial over TCP. -/
theorem inv_dialledTCP (hi : Inv h f w) (hp : w.phase = .dialTCP) :
    Inv h f (dialled h f w .tcp) := by
  obtain ⟨horder, hstands⟩ := hi
  unfold Stands at hstands
  rw [hp] at horder hstands
  obtain ⟨hrelay, hsocket, hb, d', hne, hmem⟩ := hstands
  refine ⟨horder.did (.dialAnyHappy .tcp _) true (Nat.le_refl _), .tcp, ?_,
    ⟨hb.engine, hb.listener, hb.candidates⟩⟩
  exact ⟨rfl, hsocket, rfl, fun hs => (by cases hs), fun hs => (by cases hs),
    fun _ => ⟨hrelay, d', hne, List.mem_append_left _ hmem⟩⟩

theorem inv_exposeService (hi : Inv h f w) (hp : w.phase = .forwardTLS) :
    Inv h f (exposeService f ((w.did .loadForwardTLS true).did .setForwardServerTLS true)) := by
  obtain ⟨horder, hstands⟩ := hi
  unfold Stands at hstands
  rw [hp] at horder hstands
  obtain ⟨d, hd, hb⟩ := hstands
  have hdid : InOrder ((w.did .loadForwardTLS true).did .setForwardServerTLS true).calls 7 :=
    (horder.did .loadForwardTLS true (Nat.le_refl _)).did .setForwardServerTLS true (Nat.le_refl _)
  have hcalls := List.Subset.trans (subset_did w .loadForwardTLS true)
    (subset_did _ .setForwardServerTLS true)
  refine ⟨?_, stands_exposeService (hd.keep rfl rfl rfl hcalls)
    ⟨hb.engine, hb.listener, hb.candidates⟩⟩
  unfold exposeService
  split
  · exact order_newEngine (hdid.mono (by decide))
  · split
    · exact hdid.goto (.exited 2) (by decide)
    · exact hdid.goto .expose (by decide)

theorem inv_step {c : Choice} (hi : Inv h f w) (hs : step h f w c = some w') : Inv h f w' := by
  have horder := hi.order
  have hstands := hi.stands
  unfold Stands at hstands
  cases hp : w.phase with
  | parse =>
    cases c <;> simp only [step, hp, Option.some.injEq, reduceCtorEq] at hs
    subst hs
    exact inv_parse hi hp
  | clientTLS =>
    rw [hp] at horder hstands
    obtain ⟨hsession, hsocket, hb⟩ := hstands
    cases c <;> simp only [step, hp, Option.some.injEq, reduceCtorEq] at hs
    · have hdid : InOrder (w.did .loadClientTLS true).calls 1 :=
        horder.did .loadClientTLS true (Nat.le_refl _)
      split at hs
      · rename_i hlisten
        cases hs
        exact ⟨hdid, hlisten, hb.engine, hb.listener, hb.candidates⟩
      · rename_i hlisten
        cases hs
        exact ⟨hdid.goto (.dial .default) (by decide), not_not.mp hlisten, hsocket, hb.engine,
          hb.listener, hb.candidates⟩
    · cases hs
      exact ⟨horder.exits .loadClientTLS (Nat.le_refl _) (by decide), trivial⟩
  | bind =>
    rw [hp] at horder hstands
    obtain ⟨hlisten, hb⟩ := hstands
    cases c <;> simp only [step, hp, Option.some.injEq, reduceCtorEq] at hs
    · cases hs
      exact ⟨horder.did (.newSharedTransport _) true (Nat.le_refl _), hlisten, rfl, hb.engine,
        hb.listener, hb.candidates⟩
    · cases hs
      exact ⟨horder.exits (.newSharedTransport _) (Nat.le_refl _) (by simp [Call.rank]), trivial⟩
  | dial d =>
    rw [hp] at horder hstands
    cases d with
    | tcp => exact hstands.elim
    | shared =>
      obtain ⟨hlisten, hsocket, hb⟩ := hstands
      cases c <;> simp only [step, hp, Option.some.injEq, reduceCtorEq] at hs
      · cases hs
        exact inv_dialled horder (by decide) hb hsocket (fun _ => hlisten) fun h => (by cases h)
      · cases hs
        exact inv_fallback horder (by decide) hb
    | default =>
      obtain ⟨hlisten, hsocket, hb⟩ := hstands
      cases c <;> simp only [step, hp, Option.some.injEq, reduceCtorEq] at hs
      · cases hs
        exact inv_dialled horder (by decide) hb hsocket (fun h => (by cases h)) fun _ => hlisten
      · cases hs
        exact inv_fallback horder (by decide) hb
  | dialTCP =>
    cases c <;> simp only [step, hp, Option.some.injEq, reduceCtorEq] at hs
    · cases hs
      exact inv_dialledTCP hi hp
    · cases hs
      rw [hp] at horder
      exact ⟨horder.exits (.dialAnyHappy .tcp _) (Nat.le_refl _) (by simp [Call.rank]), trivial⟩
  | forwardTLS =>
    cases c <;> simp only [step, hp, Option.some.injEq, reduceCtorEq] at hs
    · cases hs
      exact inv_exposeService hi hp
    · cases hs
      rw [hp] at horder
      exact ⟨horder.exits .loadForwardTLS (Nat.le_refl _) (by decide), trivial⟩
  | expose =>
    rw [hp] at horder hstands
    obtain ⟨d, hd, hb⟩ := hstands
    cases c <;> simp only [step, hp, Option.some.injEq, reduceCtorEq] at hs
    · cases hs
      have hdid := horder.did (.expose f.exposeService f.exposeTarget) true (Nat.le_refl _)
      exact ⟨order_newEngine hdid, stands_newEngine (hd.keep rfl rfl rfl (subset_did w _ _))
        ⟨hb.engine, hb.listener, hb.candidates⟩⟩
    · cases hs
      exact ⟨horder.exits (.expose _ _) (Nat.le_refl _) (by simp [Call.rank]), trivial⟩
  | serverTLS =>
    rw [hp] at horder hstands
    obtain ⟨hd, he⟩ := hstands
    cases c <;> simp only [step, hp, Option.some.injEq, reduceCtorEq] at hs
    · cases hs
      exact ⟨horder.did .loadServerTLS true (Nat.le_refl _),
        hd.keep rfl rfl rfl (subset_did w _ _), he⟩
    · cases hs
      exact ⟨horder.exits .loadServerTLS (Nat.le_refl _) (by decide), trivial⟩
  | listen =>
    rw [hp] at horder hstands
    obtain ⟨hd, he⟩ := hstands
    cases c <;> simp only [step, hp, Option.some.injEq, reduceCtorEq] at hs
    · cases hs
      exact ⟨horder.exits .listen (Nat.le_refl _) (by decide), trivial⟩
    · cases hs
      exact ⟨horder.did .listen true (Nat.le_refl _), hd.keep rfl rfl rfl (subset_did w _ _), he,
        rfl⟩
  | query port ifaces =>
    rw [hp] at horder hstands
    obtain ⟨hd, he, hl⟩ := hstands
    cases c <;> simp only [step, hp, Option.some.injEq, reduceCtorEq] at hs
    · cases hs
      exact ⟨order_gather none horder, stands_gather none hd he hl⟩
    · cases hs
      exact ⟨order_gather (some _) horder, stands_gather (some _) hd he hl⟩
  | enable =>
    rw [hp] at horder hstands
    obtain ⟨d, hw⟩ := hstands
    cases c <;> simp only [step, hp, Option.some.injEq, reduceCtorEq] at hs
    cases hs
    exact ⟨order_enableP2P horder, stands_enableP2P hw⟩
  | intercept =>
    rw [hp] at horder hstands
    obtain ⟨d, hw⟩ := hstands
    cases c <;> simp only [step, hp, Option.some.injEq, reduceCtorEq] at hs
    · cases hs
      have hcalls := List.Subset.trans (subset_did w .startInterceptor true)
        (subset_did _ .runConsumer true)
      exact ⟨(horder.did .startInterceptor true (Nat.le_refl _)).did .runConsumer true
        (Nat.le_refl _), d, hw.keep rfl rfl rfl rfl rfl rfl hcalls⟩
    · cases hs
      exact ⟨horder.exits .startInterceptor (Nat.le_refl _) (by decide), trivial⟩
  | run =>
    rw [hp] at horder
    cases c <;> simp only [step, hp, Option.some.injEq, reduceCtorEq] at hs
    · cases hs
      have hdid := horder.did (.runWithReconnect w.reconnectAddrs) true (Nat.le_refl _)
      exact ⟨order_deferred hdid, .inr (closed_deferred _)⟩
    · cases hs
      exact ⟨horder.exits (.runWithReconnect _) (Nat.le_refl _) (by simp [Call.rank]), trivial⟩
  | returned => cases c <;> simp [step, hp] at hs
  | exited code => cases c <;> simp [step, hp] at hs

theorem reach_inv (hr : (program h f).Reach w) : Inv h f w := by
  refine Machine.Reach.invariant (M := program h f) (I := Inv h f) ?_ ?_ hr
  · exact ⟨inOrder_nil, rfl, rfl, rfl, rfl, rfl⟩
  · exact fun w c w' hw hs => inv_step hw hs

theorem Wired.ne_shared (hw : Wired h f w d) (hl : w.listener = none) : d ≠ .shared := by
  intro hd
  obtain ⟨port, _, _, _, hlistener, _⟩ := hw.listens hd
  rw [hl] at hlistener
  cases hlistener

/-- An agent that is up. -/
theorem wired_of_run (hr : (program h f).Reach w) (hp : w.phase = .run) :
    ∃ d, Wired h f w d := by
  have hstands := (reach_inv hr).stands
  unfold Stands at hstands
  rwa [hp] at hstands

/-- The session is closed when `main` returns, and not when it exits. -/
theorem exits_leave_session (hr : (program h f).Reach w) :
    (w.phase = .returned → w.session = none ∨ Closed w) ∧
    ∀ code, w.phase = .exited code → ∀ ok, (Call.closeSession, ok) ∉ w.calls := by
  have hi := reach_inv hr
  constructor
  · intro hp
    have hstands := hi.stands
    unfold Stands at hstands
    rwa [hp] at hstands
  · intro code hp ok hmem
    have hlt := hi.order.below _ hmem
    rw [hp] at hlt
    simp [Call.rank, Phase.rank] at hlt

/-- A call that reads the control stream of the session: `HELLO_ACK`, `REGISTER_ACK`, also in a
`Reconnect`, and `OBSERVED_ADDR_RESP`. -/
def Call.readsControl : Call → Bool
  | .dialAnyHappy _ _ | .expose _ _ | .queryServerReflexive | .runWithReconnect _ => true
  | _ => false

/-- A call that may leave a goroutine which uses the session. The reader of a reply goes on when
`QueryServerReflexive` has timed out (`candidate.go:124`). -/
def leaves : Call × Bool → Bool
  | (.queryServerReflexive, ok) => !ok
  | (.enableP2P, _) | (.acceptDirect, _) | (.runConsumer, _) => true
  | _ => false

/-- After `EnableP2P`. -/
theorem Call.readsControl_of_rank (c : Call) (hlt : 13 < c.rank) (hc : c.readsControl = true) :
    ∃ addrs, c = .runWithReconnect addrs := by
  cases c with
  | dialAnyHappy d addrs => cases d <;> simp [rank] at hlt
  | expose => simp [rank] at hlt
  | queryServerReflexive => simp [rank] at hlt
  | runWithReconnect addrs => exact ⟨addrs, rfl⟩
  | _ => cases hc

/-- Before `EnableP2P`. -/
theorem leaves_of_rank {c : Call × Bool} (hlt : c.1.rank < 13) (hc : leaves c = true) :
    c = (.queryServerReflexive, false) := by
  obtain ⟨c, ok⟩ := c
  cases c with
  | queryServerReflexive =>
    obtain rfl : ok = false := by simpa [leaves] using hc
    rfl
  | enableP2P => simp [Call.rank] at hlt
  | acceptDirect => simp [Call.rank] at hlt
  | runConsumer => simp [Call.rank] at hlt
  | _ => cases hc

/-- **How an agent is wired.** -/
theorem start_wiring (hr : (program h f).Reach w) :
    (w.calls.Pairwise fun a b => a.1.rank < b.1.rank) ∧
    (∀ before ok after, w.calls = before ++ (.enableP2P, ok) :: after →
      (∀ c ∈ after, c.1.readsControl = true → ∃ addrs, c.1 = .runWithReconnect addrs) ∧
      ∀ c ∈ before, leaves c = true → c = (.queryServerReflexive, false)) ∧
    (w.phase = .run →
      (w.session = some .shared ∧ f.p2pListen ≠ "" ∧ w.sharedTransport = true ∧
        w.engineShared = true ∧ ∃ port ifaces srflx adv, w.listener = some port ∧
          w.localCandidates =
            toPBCandidates h.net (mainLocals (ε := String) ifaces port srflx adv)) ∨
      (w.session ≠ none ∧ w.session ≠ some .shared ∧ w.sharedTransport = false ∧
        w.engineShared = false ∧ w.listener = none ∧ w.localCandidates = [])) := by
  have hi := reach_inv hr
  refine ⟨hi.order.pairwise, fun before ok after heq => ?_, fun hp => ?_⟩
  · have hsorted := hi.order.pairwise
    rw [heq, List.pairwise_append] at hsorted
    obtain ⟨-, hafter, hbefore⟩ := hsorted
    constructor
    · intro c hc
      have hlt := (List.pairwise_cons.mp hafter).1 c hc
      exact c.1.readsControl_of_rank hlt
    · intro c hc
      exact leaves_of_rank (hbefore c hc _ List.mem_cons_self)
  · obtain ⟨d, hw⟩ := wired_of_run hr hp
    by_cases hd : d = .shared
    · subst hd
      exact .inl ⟨hw.session, hw.shared rfl, hw.socket, hw.engine, hw.listens rfl⟩
    · obtain ⟨hlistener, hlocals⟩ := hw.silent hd
      refine .inr ⟨by simp [hw.session], by simp [hw.session, hd], ?_, ?_, hlistener, hlocals⟩
      · rw [hw.socket, decide_eq_false hd]
      · rw [hw.engine, decide_eq_false hd]

/-- A host with no interfaces, where all texts are good. -/
def plainHost : Host where
  trimSpace := id
  parseURI _ := true
  parseAddrPort _ := none
  net := byteNetip

/-- An agent with `--p2p-listen` and `--relay-tcp`. -/
def bothFlags : Flags :=
  { cert := "cert", key := "key", ca := "ca", uri := "uri", p2pListen := "0.0.0.0:7445"
    relayTCP := "relay:443" }

/-- The world after some steps. -/
def after (cs : List Choice) : World :=
  ((program plainHost bothFlags).run (program plainHost bothFlags).init cs).getD
    (program plainHost bothFlags).init

/-- The relay is reached over QUIC. -/
def overQUIC : List Choice :=
  [.ok, .ok, .ok, .ok, .ok, .ok, .listening 7445 (.ok []),
    .observed ⟨.ofOctets 198 51 100 1, 40001⟩, .ok]

/-- It is reached over TCP only. -/
def overTCP : List Choice := [.ok, .ok, .ok, .err, .ok, .ok, .ok]

theorem reach_overQUIC : (program plainHost bothFlags).Reach (after overQUIC) :=
  Machine.reach_of_run overQUIC rfl

theorem reach_overTCP : (program plainHost bothFlags).Reach (after overTCP) :=
  Machine.reach_of_run overTCP rfl

theorem start_wiring_overQUIC :
    (after overQUIC).phase = .run ∧ (after overQUIC).listener = some 7445 ∧
      (after overQUIC).calls.Pairwise fun a b => a.1.rank < b.1.rank :=
  ⟨rfl, rfl, (start_wiring reach_overQUIC).1⟩

end Wiring

end OutRelayAgent.Start
