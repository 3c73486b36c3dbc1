import OutRelayAgent.Intercept.Accept
import OutRelayAgent.Lib.BigEndian

/-!
# From a query to a connection

Applications resolve a service by the agent's DNS server and connect to the address it answers with;
the kernel redirects the connection to the TPROXY listener, which asks for its original destination.
Here this is done in the bytes that are passed on: `DNSServer.Run` and `respond` with the messages
they read and write (`dns.go:75-173`), and `origDst4` with the `sockaddr_in` of the kernel
(`tproxy_linux.go:147-181`). `Intercept/Dns.lean` has the lookup by itself. The listener, its loop
and the calls of `Accept` are the machine of `Intercept/Accept.lean`, which runs beside the DNS
server: either may end before the other.

* **Clients** send any datagrams, and connect to any IPv4 address. Datagrams may be lost and
  overtake one another. Of a datagram the server reads 1500 bytes. A connection waits until the
  loop accepts it, if it ever does.
* **The wire format** of DNS is the library's (`Wire`); a client decodes what was packed.
* **The server** ends when its context does, or when a read fails otherwise than by the deadline.
  `As4` panics on an address that is not IPv4, which would end the agent.

Results:

* `answered_conn_served`: a connection to an address the client was answered with is handed over for
  the service of the client's own query, which is a consumed one, with the address and the port the
  client has connected to; and `As4` does not panic.
* `consumed_served`: while the server runs, the loop accepts and a call of `Accept` waits, a client
  gets through to every consumed service whose name it can be asked for.
-/

namespace OutRelayAgent.Serve

open Lib Lib.Bytes Intercept

section Model

structure Question where
  name : Bytes
  qtype : UInt16
  qclass : UInt16
  deriving DecidableEq

/-- A resource with the four bytes of an `AResource`. -/
structure Resource where
  name : Bytes
  rtype : UInt16
  rclass : UInt16
  ttl : UInt32
  a : Bytes
  deriving DecidableEq

deriving instance DecidableEq for RCode

structure Message where
  id : UInt16
  response : Bool
  recursionDesired : Bool
  rcode : RCode
  questions : List Question
  answers : List Resource
  deriving DecidableEq

def typeA : UInt16 := 1

def typeAAAA : UInt16 := 28

def classINET : UInt16 := 1

/-- `dnsmessage`: `Start` and `Question` of a `Parser`, `Message.Pack`, and what a client makes of a
datagram. -/
structure Wire where
  parse : Bytes → Option (UInt16 × Bool × Question)
  pack : Message → Option Bytes
  unpack : Bytes → Option Message

structure Wire.Lawful (wire : Wire) : Prop where
  unpack_pack : ∀ m d, wire.pack m = some d → wire.unpack d = some m

/-- `As4`, which panics unless there are four bytes. -/
def as4 : Addr → Option Bytes
  | .zero => none
  | .v4 x => some (putBE 4 x.toNat)
  | .v6 x => if x >>> 32 = 0xffff#128 then some (putBE 4 x.toNat) else none

/-- The message with an address for an answer. -/
def answerTo (id : UInt16) (rd : Bool) (q : Question) (b : Bytes) : Message :=
  ⟨id, true, rd, .success, [q], [⟨q.name, typeA, classINET, 60, b⟩]⟩

/-- What comes of a datagram. -/
inductive Reply
  | send (d : Bytes)
  | drop
  | panics

def Wire.reply (wire : Wire) (m : Message) : Reply :=
  match wire.pack m with
  | none => .drop
  | some d => .send d

variable (lowerRune : Bytes → Bytes) (dns : DNSServer) (alloc : VIPAllocator) (wire : Wire)

def respond (query : Bytes) : Reply :=
  match wire.parse query with
  | none => .drop
  | some (id, rd, q) =>
    let answer : Message := ⟨id, true, rd, .success, [q], []⟩
    if q.qtype = typeA then
      match dns.lookup lowerRune alloc q.name with
      | some vip =>
        match as4 vip with
        | none => .panics
        | some b => wire.reply (answerTo id rd q b)
      | none => wire.reply { answer with rcode := .nameError }
    else if q.qtype = typeAAAA then wire.reply { answer with rcode := .nameError }
    else wire.reply { answer with rcode := .notImplemented }

/-- The kernel's `sockaddr_in`, with the family in the order of the host. -/
def sockaddrIn (dst : BitVec 32) (port : UInt16) : Bytes :=
  [2, 0] ++ (putBE 2 port.toNat ++ (putBE 4 dst.toNat ++ List.replicate 8 0))

/-- `origDst4`, given what `getsockopt` has written. -/
def origDst4 (raw : Option Bytes) : Option (Addr × ℕ) :=
  match raw with
  | none => none
  | some raw =>
    let port := getBE ((raw.drop 2).take 2)
    let addr := Addr.v4 (BitVec.ofNat 32 (getBE ((raw.drop 4).take 4)))
    some (addr, port)

/-- A connection that the listener has accepted, and what it is handed over as. -/
structure Connection (C : Type) where
  client : C
  dst : BitVec 32
  port : UInt16
  ic : Option Accept.InterceptedConn

/-- What the loop of the listener is about to hand over. -/
def handed (i : Accept.World) : Option Accept.InterceptedConn :=
  match i.loops 0 with
  | .handing ic => some ic
  | _ => none

inductive Server
  | serving
  | returned (failed : Bool)
  | panicked

structure World (C : Type) where
  toServer : List (C × Bytes)
  toClients : List (C × Bytes)
  server : Server
  /-- What the clients have sent and received. -/
  asked : List (C × Bytes)
  got : List (C × Bytes)
  /-- Connected, and not accepted yet. -/
  backlog : List (C × BitVec 32 × UInt16)
  interceptor : Accept.World
  /-- In the order in which they were accepted. -/
  conns : List (Connection C)

inductive Act (C : Type)
  | ask (c : C) (d : Bytes)
  | lose (k : ℕ)
  | loseReply (k : ℕ)
  /-- `ReadFrom`, `respond` and `WriteTo`. -/
  | serve (k : ℕ)
  /-- `ReadFrom` fails: the socket is closed, or another error. -/
  | stop (failed : Bool)
  | receive (k : ℕ)
  | connect (c : C) (dst : BitVec 32) (port : UInt16)
  /-- The listener's `Accept` returns a connection, and `getsockopt` fails or not. -/
  | accept (k : ℕ) (ok : Bool)
  /-- Anything else the interceptor does. -/
  | intercept (a : Accept.Act)

/-- A listener's `Accept` returns a connection. -/
def accepts : Accept.Act → Bool
  | .loop _ c => c.isAccept
  | _ => false

variable {C : Type}

def step (w : World C) : Act C → Option (World C)
  | .ask c d => some { w with
      toServer := w.toServer ++ [(c, d)]
      asked := w.asked ++ [(c, d)] }
  | .lose k => some { w with toServer := w.toServer.eraseIdx k }
  | .loseReply k => some { w with toClients := w.toClients.eraseIdx k }
  | .serve k =>
    match w.server, w.toServer[k]? with
    | .serving, some (c, d) =>
      match respond lowerRune dns alloc wire (d.take 1500) with
      | .send r => some { w with
          toServer := w.toServer.eraseIdx k
          toClients := w.toClients ++ [(c, r)] }
      | .drop => some { w with toServer := w.toServer.eraseIdx k }
      | .panics => some { w with toServer := w.toServer.eraseIdx k, server := .panicked }
    | _, _ => none
  | .stop failed =>
    match w.server with
    | .serving => some { w with server := .returned failed }
    | _ => none
  | .receive k =>
    match w.toClients[k]? with
    | some (c, r) => some { w with
        toClients := w.toClients.eraseIdx k
        got := w.got ++ [(c, r)] }
    | none => none
  | .connect c dst port =>
    if w.interceptor.bound = 0 ∨ w.interceptor.shut 0 = true then none
    else some { w with backlog := w.backlog ++ [(c, dst, port)] }
  | .accept k ok =>
    match w.backlog[k]? with
    | some (c, dst, port) =>
      let raw := if ok then some (sockaddrIn dst port) else none
      (Accept.step (Accept.tproxy alloc) w.interceptor
        (.loop 0 (.accept (.tcp (origDst4 raw))))).map fun i =>
          { w with
            backlog := w.backlog.eraseIdx k
            interceptor := i
            conns := w.conns ++ [⟨c, dst, port, handed i⟩] }
    | none => none
  | .intercept a =>
    if accepts a then none
    else (Accept.step (Accept.tproxy alloc) w.interceptor a).map fun i =>
      { w with interceptor := i }

def interception : Machine (World C) (Act C) where
  init := ⟨[], [], .serving, [], [], [], (Accept.machine (Accept.tproxy alloc)).init, []⟩
  step := step lowerRune dns alloc wire

end Model

/-! ## Bytes -/

section Format

variable {lowerRune : Bytes → Bytes} {dns : DNSServer} {alloc : VIPAllocator} {wire : Wire}

/-- The address and the port come through. -/
theorem origDst4_sockaddrIn (dst : BitVec 32) (port : UInt16) :
    origDst4 (some (sockaddrIn dst port)) = some (.v4 dst, port.toNat) := by
  have hport : getBE (((sockaddrIn dst port).drop 2).take 2) = port.toNat :=
    getBE_take port.toNat_lt _
  have hrest : (sockaddrIn dst port).drop 4 = putBE 4 dst.toNat ++ List.replicate 8 0 :=
    drop_putBE 2 port.toNat _
  have haddr : getBE (((sockaddrIn dst port).drop 4).take 4) = dst.toNat := by
    rw [hrest]
    exact getBE_take dst.isLt _
  simp only [origDst4, hport, haddr, BitVec.ofNat_toNat, BitVec.setWidth_eq]

/-- Four bytes are one address. -/
theorem putBE_inj {x y : BitVec 32} (h : putBE 4 x.toNat = putBE 4 y.toNat) : x = y := by
  have hget := congrArg getBE h
  rw [getBE_putBE_of_lt x.isLt, getBE_putBE_of_lt y.isLt] at hget
  exact BitVec.eq_of_toNat_eq hget

/-- What is handed over. -/
theorem handed_of_accept {i i' : Accept.World} {dst : BitVec 32} {port : UInt16} {ok : Bool}
    {ic : Accept.InterceptedConn}
    (hs : Accept.step (Accept.tproxy alloc) i (.loop 0 (.accept (.tcp (origDst4
      (if ok then some (sockaddrIn dst port) else none))))) = some i')
    (h : handed i' = some ic) :
    ic.origDest = .original (.v4 dst, port.toNat) ∧
      accept alloc (.v4 dst) = some ic.targetSvc := by
  obtain ⟨-, hs⟩ := Option.ite_none_left_eq_some.mp hs
  obtain ⟨⟨l, e⟩, hl, rfl⟩ := Option.map_eq_some_iff.mp hs
  have hloop : ((i.setLoop 0 l).effect 0 e).loops 0 = l := by
    cases e <;> simp [Accept.World.effect, Accept.World.newConn, Accept.World.setHolder,
      Accept.World.setLoop]
  rw [handed, hloop] at h
  have hl : Accept.tproxy.acceptLoop alloc i.connCount i.closed (i.loops 0) _ = some (l, e) := hl
  -- The loop takes what `getsockopt` has found, and looks it up.
  cases ok with
  | false =>
    cases hi : i.loops 0 <;> simp [hi, origDst4, Accept.tproxy.acceptLoop] at hl
    simp [← hl.1] at h
  | true =>
    rw [if_pos rfl, origDst4_sockaddrIn] at hl
    cases hi : i.loops 0 <;> simp only [hi, Accept.tproxy.acceptLoop, reduceCtorEq] at hl
    cases hacc : accept alloc (.v4 dst) with
    | none =>
      simp only [hacc, Option.some.injEq, Prod.mk.injEq] at hl
      simp [← hl.1] at h
    | some svc =>
      simp only [hacc, Option.some.injEq, Prod.mk.injEq] at hl
      rw [← hl.1] at h
      cases h
      exact ⟨rfl, rfl⟩

/-- The loop accepts a connection to an allocated address. -/
theorem step_accept {i : Accept.World} {dst : BitVec 32} {svc : Bytes} (port : UInt16)
    (hopen : i.shut 0 = false) (hloop : i.loops 0 = .accepting)
    (h : accept alloc (.v4 dst) = some svc) :
    Accept.step (Accept.tproxy alloc) i (.loop 0 (.accept (.tcp (origDst4
      (some (sockaddrIn dst port)))))) =
      some ((i.setLoop 0 (.handing ⟨i.connCount, .original (.v4 dst, port.toNat), svc⟩)).effect 0
        .keep) := by
  rw [origDst4_sockaddrIn]
  simp [Accept.step, hopen, hloop, Accept.tproxy, Accept.tproxy.acceptLoop, h]

/-- The types that `respond` tells apart. -/
def qtypeOf (t : UInt16) : QType :=
  if t = typeA then .a else if t = typeAAAA then .aaaa else .other

/-- The message says what the reply of `Intercept/Dns.lean` says. -/
structure Replied (lowerRune : Bytes → Bytes) (dns : DNSServer) (alloc : VIPAllocator)
    (id : UInt16) (rd : Bool) (q : Question) (m : Message) : Prop where
  header : m.id = id ∧ m.response = true ∧ m.recursionDesired = rd
  questions : m.questions = [q]
  rcode : m.rcode = (dns.respond lowerRune alloc (qtypeOf q.qtype) q.name).rcode
  answers : m.answers.map (fun r => some r.a) =
    (dns.respond lowerRune alloc (qtypeOf q.qtype) q.name).answers.map as4

theorem reply_eq_send {m : Message} {d : Bytes} (h : wire.reply m = .send d) :
    wire.pack m = some d := by
  unfold Wire.reply at h
  split at h
  · cases h
  · rename_i hpack
    cases h
    exact hpack

theorem respond_eq_send {query d : Bytes} (h : respond lowerRune dns alloc wire query = .send d) :
    ∃ id rd q m, wire.parse query = some (id, rd, q) ∧ wire.pack m = some d ∧
      Replied lowerRune dns alloc id rd q m := by
  unfold respond at h
  split at h
  · cases h
  · rename_i id rd q hparse
    dsimp only at h
    by_cases ha : q.qtype = typeA
    · have hq : qtypeOf q.qtype = .a := if_pos ha
      rw [if_pos ha] at h
      split at h
      · rename_i vip hlookup
        split at h
        · cases h
        · rename_i b hb
          refine ⟨id, rd, q, _, hparse, reply_eq_send h, ⟨rfl, rfl, rfl⟩, rfl, ?_, ?_⟩
          · simp [hq, DNSServer.respond, hlookup, answerTo]
          · simp [hq, DNSServer.respond, hlookup, hb, answerTo]
      · rename_i hlookup
        refine ⟨id, rd, q, _, hparse, reply_eq_send h, ⟨rfl, rfl, rfl⟩, rfl, ?_, ?_⟩
        · simp [hq, DNSServer.respond, hlookup]
        · simp [hq, DNSServer.respond, hlookup]
    · rw [if_neg ha] at h
      by_cases hb : q.qtype = typeAAAA
      · have hq : qtypeOf q.qtype = .aaaa := by rw [qtypeOf, if_neg ha, if_pos hb]
        rw [if_pos hb] at h
        refine ⟨id, rd, q, _, hparse, reply_eq_send h, ⟨rfl, rfl, rfl⟩, rfl, ?_, ?_⟩
        · rw [hq, DNSServer.respond]
        · rw [hq, DNSServer.respond, List.map_nil, List.map_nil]
      · have hq : qtypeOf q.qtype = .other := by rw [qtypeOf, if_neg ha, if_neg hb]
        rw [if_neg hb] at h
        refine ⟨id, rd, q, _, hparse, reply_eq_send h, ⟨rfl, rfl, rfl⟩, rfl, ?_, ?_⟩
        · rw [hq, DNSServer.respond]
        · rw [hq, DNSServer.respond, List.map_nil, List.map_nil]

/-- The reply to a question that can be answered. -/
theorem respond_of_lookup {query d : Bytes} {id : UInt16} {rd : Bool} {q : Question}
    {dst : BitVec 32} (hparse : wire.parse query = some (id, rd, q)) (hq : q.qtype = typeA)
    (hlookup : dns.lookup lowerRune alloc q.name = some (.v4 dst))
    (hpack : wire.pack (answerTo id rd q (putBE 4 dst.toNat)) = some d) :
    respond lowerRune dns alloc wire query = .send d := by
  simp only [respond, hparse, if_pos hq, hlookup, as4, Wire.reply, hpack]

/-- An answer is an address that was looked up. -/
theorem Replied.lookup {id : UInt16} {rd : Bool} {q : Question} {m : Message}
    (h : Replied lowerRune dns alloc id rd q m) {r : Resource} (hr : r ∈ m.answers) :
    ∃ vip, dns.lookup lowerRune alloc q.name = some vip ∧ as4 vip = some r.a := by
  have hmem : some r.a ∈ m.answers.map fun r => some r.a := List.mem_map_of_mem hr
  rw [h.answers] at hmem
  obtain ⟨vip, hvip, has⟩ := List.mem_map.mp hmem
  exact ⟨vip, mem_respond hvip, has⟩

/-- The server panics only on an address that is not IPv4. -/
theorem respond_ne_panics (hv4 : ∀ q vip, dns.lookup lowerRune alloc q = some vip →
      ∃ x, vip = .v4 x) (query : Bytes) :
    respond lowerRune dns alloc wire query ≠ .panics := by
  have hreply : ∀ m, wire.reply m ≠ .panics := by
    intro m hm
    unfold Wire.reply at hm
    split at hm <;> cases hm
  unfold respond
  split
  · intro h
    cases h
  · dsimp only
    split
    · split
      · rename_i hlookup
        obtain ⟨x, rfl⟩ := hv4 _ _ hlookup
        exact hreply _
      · exact hreply _
    · split
      · exact hreply _
      · exact hreply _

end Format

/-! ## Where replies come from -/

section Provenance

variable {lowerRune : Bytes → Bytes} {dns : DNSServer} {alloc : VIPAllocator} {wire : Wire}
  {C : Type} {w w' : World C}

/-- A datagram of the client was responded to with this one. -/
def RepliesTo (lowerRune : Bytes → Bytes) (dns : DNSServer) (alloc : VIPAllocator) (wire : Wire)
    (asked : List (C × Bytes)) (x : C × Bytes) : Prop :=
  ∃ d, (x.1, d) ∈ asked ∧ respond lowerRune dns alloc wire (d.take 1500) = .send x.2

structure Inv (lowerRune : Bytes → Bytes) (dns : DNSServer) (alloc : VIPAllocator) (wire : Wire)
    (w : World C) : Prop where
  toServer : w.toServer ⊆ w.asked
  toClients : ∀ x ∈ w.toClients, RepliesTo lowerRune dns alloc wire w.asked x
  got : ∀ x ∈ w.got, RepliesTo lowerRune dns alloc wire w.asked x
  running : w.server ≠ .panicked
  conns : ∀ x ∈ w.conns, ∀ ic, x.ic = some ic →
    ic.origDest = .original (.v4 x.dst, x.port.toNat) ∧ accept alloc (.v4 x.dst) = some ic.targetSvc

theorem RepliesTo.mono {asked asked' : List (C × Bytes)} {x : C × Bytes}
    (h : RepliesTo lowerRune dns alloc wire asked x) (hsub : asked ⊆ asked') :
    RepliesTo lowerRune dns alloc wire asked' x := by
  obtain ⟨d, hd, hr⟩ := h
  exact ⟨d, hsub hd, hr⟩

theorem inv_step (hv4 : ∀ q vip, dns.lookup lowerRune alloc q = some vip → ∃ x, vip = .v4 x)
    {a : Act C} (hi : Inv lowerRune dns alloc wire w)
    (hs : step lowerRune dns alloc wire w a = some w') : Inv lowerRune dns alloc wire w' := by
  cases a with
  | ask c d =>
    cases hs
    have hsub : w.asked ⊆ w.asked ++ [(c, d)] := List.subset_append_left _ _
    refine ⟨?_, fun x hx => (hi.toClients x hx).mono hsub, fun x hx => (hi.got x hx).mono hsub,
      hi.running, hi.conns⟩
    exact List.append_subset.mpr
      ⟨List.Subset.trans hi.toServer hsub, List.subset_append_right _ _⟩
  | lose k =>
    cases hs
    exact ⟨List.Subset.trans List.eraseIdx_subset hi.toServer, hi.toClients, hi.got, hi.running,
      hi.conns⟩
  | loseReply k =>
    cases hs
    exact ⟨hi.toServer, fun x hx => hi.toClients x (List.eraseIdx_subset hx), hi.got, hi.running,
      hi.conns⟩
  | serve k =>
    simp only [step] at hs
    split at hs
    · rename_i c d hserving hk
      have hasked : (c, d) ∈ w.asked := hi.toServer (List.mem_of_getElem? hk)
      have hrest : w.toServer.eraseIdx k ⊆ w.asked :=
        List.Subset.trans List.eraseIdx_subset hi.toServer
      split at hs
      · rename_i r hr
        cases hs
        refine ⟨hrest, ?_, hi.got, hi.running, hi.conns⟩
        exact List.forall_mem_append.mpr ⟨hi.toClients,
          List.forall_mem_singleton.mpr ⟨d, hasked, hr⟩⟩
      · cases hs
        exact ⟨hrest, hi.toClients, hi.got, hi.running, hi.conns⟩
      · rename_i hpanics
        exact absurd hpanics (respond_ne_panics hv4 _)
    · cases hs
  | stop failed =>
    simp only [step] at hs
    split at hs
    · cases hs
      exact ⟨hi.toServer, hi.toClients, hi.got, fun h => (by cases h), hi.conns⟩
    · cases hs
  | receive k =>
    simp only [step] at hs
    split at hs
    · rename_i c r hk
      cases hs
      have hr := hi.toClients (c, r) (List.mem_of_getElem? hk)
      refine ⟨hi.toServer, fun x hx => hi.toClients x (List.eraseIdx_subset hx), ?_, hi.running,
        hi.conns⟩
      exact List.forall_mem_append.mpr ⟨hi.got, List.forall_mem_singleton.mpr hr⟩
    · cases hs
  | connect c dst port =>
    obtain ⟨-, hs⟩ := Option.ite_none_left_eq_some.mp hs
    cases hs
    exact ⟨hi.toServer, hi.toClients, hi.got, hi.running, hi.conns⟩
  | accept k ok =>
    simp only [step] at hs
    split at hs
    · obtain ⟨i, hi', rfl⟩ := Option.map_eq_some_iff.mp hs
      refine ⟨hi.toServer, hi.toClients, hi.got, hi.running, ?_⟩
      exact List.forall_mem_append.mpr ⟨hi.conns, List.forall_mem_singleton.mpr
        fun ic hic => handed_of_accept hi' hic⟩
    · cases hs
  | intercept a =>
    obtain ⟨-, hs⟩ := Option.ite_none_left_eq_some.mp hs
    obtain ⟨i, -, rfl⟩ := Option.map_eq_some_iff.mp hs
    exact ⟨hi.toServer, hi.toClients, hi.got, hi.running, hi.conns⟩

theorem reach_inv (hv4 : ∀ q vip, dns.lookup lowerRune alloc q = some vip → ∃ x, vip = .v4 x)
    (hw : (interception lowerRune dns alloc wire).Reach w) : Inv lowerRune dns alloc wire w := by
  refine Machine.Reach.invariant (M := interception lowerRune dns alloc wire) ?_ ?_ hw
  · exact ⟨fun x hx => (by cases hx), fun x hx => (by cases hx), fun x hx => (by cases hx),
      fun h => (by cases h), fun x hx => (by cases hx)⟩
  · exact fun w a w' hi hs => inv_step hv4 hi hs

end Provenance

/-! ## The results -/

section Results

variable {trimSpace lowerRune : Bytes → Bytes} {ε : Type} {dnsAddr dnsSuffix : Bytes}
  {consumes : List Bytes} {dns : DNSServer} {alloc : VIPAllocator} {wire : Wire}
  {C : Type} {w : World C}

/-- What is looked up was handed out, and is IPv4. -/
theorem lookup_handout (hz : Zipped defaultVIP consumes alloc) {q : Bytes} {vip : Addr}
    (h : dns.lookup lowerRune alloc q = some vip) :
    ∃ svc x, vip = .v4 x ∧ toLower lowerRune (trimSuffix q [dot]) = svc ++ dns.suffix ∧
      (svc, vip) ∈ handout defaultVIP.usable consumes := by
  obtain ⟨svc, -, hname, hv⟩ := lookup_eq_some_iff.mp h
  have hpair := hz.lookupName_iff.mp hv
  have husable : vip ∈ defaultVIP.usable := List.mem_of_mem_take (mem_take_of_mem_handout hpair)
  obtain ⟨-, -, hv⟩ := (Prefix.mem_usable (a := 0x64400000) rfl).mp husable
  cases vip with
  | v4 x => exact ⟨svc, x, rfl, hname, hpair⟩
  | zero | v6 => cases hv

theorem lookup_v4 (hz : Zipped defaultVIP consumes alloc) (q : Bytes) (vip : Addr)
    (h : dns.lookup lowerRune alloc q = some vip) : ∃ x, vip = .v4 x := by
  obtain ⟨-, x, hx, -⟩ := lookup_handout hz h
  exact ⟨x, hx⟩

/-- **A connection to an answered address is for the service that was asked for.** -/
theorem answered_conn_served
    (hstart : (startInterceptor trimSpace lowerRune .tproxy dnsAddr dnsSuffix consumes :
      Except (StartError ε) Started) = .ok (.tproxy alloc dns)) (hwire : wire.Lawful)
    (hw : (interception lowerRune dns alloc wire).Reach w) :
    w.server ≠ .panicked ∧
    ∀ x ∈ w.conns, ∀ ic, x.ic = some ic →
      ic.origDest = .original (.v4 x.dst, x.port.toNat) ∧ ic.targetSvc ∈ consumes ∧
      ∀ r m, (x.client, r) ∈ w.got → wire.unpack r = some m →
        (∃ a ∈ m.answers, a.a = putBE 4 x.dst.toNat) →
        ∃ d rd q, (x.client, d) ∈ w.asked ∧ wire.parse (d.take 1500) = some (m.id, rd, q) ∧
          m.questions = [q] ∧ toLower lowerRune (trimSuffix q.name [dot]) =
            ic.targetSvc ++ normalise trimSpace lowerRune dnsSuffix := by
  obtain ⟨⟨rfl, -⟩, rfl⟩ := startInterceptor_eq_ok.mp hstart
  have hz := zipped_default consumes
  have hi := reach_inv (lookup_v4 hz) hw
  refine ⟨hi.running, fun x hx ic hic => ?_⟩
  obtain ⟨hdst, haccept⟩ := hi.conns x hx ic hic
  obtain ⟨hne, hlookup⟩ := accept_eq_some haccept
  have hpair := hz.mem_of_lookup hne hlookup
  refine ⟨hdst, (mem_handout_iff.mp hpair).1, fun r m hr hm ⟨a, ha, hbytes⟩ => ?_⟩
  obtain ⟨d, hasked, hsend⟩ := hi.got (x.client, r) hr
  obtain ⟨id, rd, q, m', hparse, hpack, hreplied⟩ := respond_eq_send hsend
  obtain rfl : m' = m := Option.some.inj ((hwire.unpack_pack m' r hpack).symm.trans hm)
  obtain ⟨vip, hvip, has⟩ := hreplied.lookup ha
  obtain ⟨svc, y, rfl, hname, hsvc⟩ := lookup_handout hz hvip
  -- the four bytes of the answer are those of the destination
  have hsame : y = x.dst := putBE_inj ((Option.some.inj has).trans hbytes)
  subst hsame
  have htarget : svc = ic.targetSvc := by rw [← hz.lookup_of_mem hsvc, hlookup]
  refine ⟨d, rd, q, hasked, ?_, hreplied.questions, by rw [hname, htarget]⟩
  rw [hparse, hreplied.header.1]

/-- A consumed service has an address, and every spelling of its name is answered with it. -/
theorem lookup_of_spells {svc q : Bytes} (hz : Zipped defaultVIP consumes alloc)
    (hfit : (distinct consumes).length ≤ defaultVIP.usable.length) (hne : svc ≠ [])
    (hmem : svc ∈ consumes) (hlow : toLower lowerRune (svc ++ dns.suffix) = svc ++ dns.suffix)
    (hdot : ¬ [dot] <:+ svc ++ dns.suffix) (hspells : Spells (svc ++ dns.suffix) q) :
    ∃ dst, dns.lookup lowerRune alloc q = some (.v4 dst) ∧
      accept alloc (.v4 dst) = some svc := by
  have hturn : turn consumes svc < defaultVIP.usable.length :=
    Nat.lt_of_lt_of_le (turn_lt hmem) hfit
  have hpair : (svc, defaultVIP.usable[turn consumes svc]) ∈ handout defaultVIP.usable consumes :=
    mem_handout_iff.mpr ⟨hmem, List.getElem?_eq_getElem hturn⟩
  have hlookup := lookup_eq_some_iff.mpr
    ⟨svc, hne, (toLower_of_spells hdot hspells).trans hlow, hz.lookupName_iff.mpr hpair⟩
  obtain ⟨dst, hdst⟩ := lookup_v4 hz q _ hlookup
  rw [hdst] at hlookup hpair
  refine ⟨dst, hlookup, ?_⟩
  rw [accept, hz.lookup_of_mem hpair]
  exact if_neg hne

theorem eraseIdx_concat_length {α : Type} (l : List α) (x : α) :
    (l ++ [x]).eraseIdx l.length = l := by
  rw [List.eraseIdx_append_of_length_le (Nat.le_refl _), Nat.sub_self]
  exact List.append_nil l

/-- A query and its reply, with nothing in between. -/
theorem run_resolve {c : C} {d r : Bytes} (hserving : w.server = .serving)
    (hrespond : respond lowerRune dns alloc wire (d.take 1500) = .send r) :
    (interception lowerRune dns alloc wire).run w
        [.ask c d, .serve w.toServer.length, .receive w.toClients.length] =
      some { w with
        asked := w.asked ++ [(c, d)]
        got := w.got ++ [(c, r)] } := by
  simp only [Machine.run, interception, step, hserving, List.getElem?_concat_length, hrespond,
    eraseIdx_concat_length]

/-- The interceptor is up and idle, and the call `j` of `Accept` waits. -/
structure Taking (i : Accept.World) (j : ℕ) : Prop where
  bound : i.bound ≠ 0
  isOpen : i.shut 0 = false
  loop : i.loops 0 = .accepting
  call : i.calls j = .selecting

/-- A connection is accepted and handed over. -/
theorem run_connect {c : C} {dst : BitVec 32} {svc : Bytes} {j : ℕ} (port : UInt16)
    (htaking : Taking w.interceptor j) (haccept : accept alloc (.v4 dst) = some svc) :
    let ic : Accept.InterceptedConn :=
      ⟨w.interceptor.connCount, .original (.v4 dst, port.toNat), svc⟩
    ∃ w', (interception lowerRune dns alloc wire).run w
        [.connect c dst port, .accept w.backlog.length true, .intercept (.handover 0 j)] =
          some w' ∧
      w'.asked = w.asked ∧ w'.got = w.got ∧ w'.conns = w.conns ++ [⟨c, dst, port, some ic⟩] ∧
      w'.interceptor.calls j = .returned (.conn ic) := by
  intro ic
  have hconnect : step lowerRune dns alloc wire w (.connect c dst port) =
      some { w with backlog := w.backlog ++ [(c, dst, port)] } := by
    simp [step, htaking.bound, htaking.isOpen]
  have hstep := step_accept port htaking.isOpen htaking.loop haccept
  set i := (w.interceptor.setLoop 0 (.handing ic)).effect 0 .keep with hi
  have hhanded : handed i = some ic := by
    simp [handed, hi, Accept.World.effect, Accept.World.newConn, Accept.World.setLoop]
  have hloop : i.loops 0 = .handing ic := by
    simp [hi, Accept.World.effect, Accept.World.newConn, Accept.World.setLoop]
  have hcall : i.calls j = .selecting := htaking.call
  have haccepted : step lowerRune dns alloc wire { w with backlog := w.backlog ++ [(c, dst, port)] }
      (.accept w.backlog.length true) =
      some { w with interceptor := i, conns := w.conns ++ [⟨c, dst, port, some ic⟩] } := by
    simp only [step, List.getElem?_concat_length, if_true, hstep, Option.map_some, hhanded,
      eraseIdx_concat_length]
  have hhandover : step lowerRune dns alloc wire
      { w with interceptor := i, conns := w.conns ++ [⟨c, dst, port, some ic⟩] }
      (.intercept (.handover 0 j)) = some { w with
        interceptor := ((i.setLoop 0 .accepting).setCall j (.returned (.conn ic))).setHolder ic.conn
          (some (.call j))
        conns := w.conns ++ [⟨c, dst, port, some ic⟩] } := by
    simp [step, accepts, Accept.step, hloop, hcall]
  refine ⟨_, Machine.run_cons.mpr ⟨_, hconnect, Machine.run_cons.mpr ⟨_, haccepted,
    Machine.run_cons.mpr ⟨_, hhandover, rfl⟩⟩⟩, rfl, rfl, rfl, ?_⟩
  simp [Accept.World.setHolder, Accept.World.setCall]

/-- **Every consumed service can be got through to.** The reply has to fit its format, and
`getsockopt` to succeed. -/
theorem consumed_served {svc : Bytes} {j : ℕ}
    (hstart : (startInterceptor trimSpace lowerRune .tproxy dnsAddr dnsSuffix consumes :
      Except (StartError ε) Started) = .ok (.tproxy alloc dns)) (hwire : wire.Lawful)
    (hne : svc ≠ []) (hmem : svc ∈ consumes)
    (hlow : toLower lowerRune (svc ++ dns.suffix) = svc ++ dns.suffix)
    (hdot : ¬ [dot] <:+ svc ++ dns.suffix) (hserving : w.server = .serving)
    (htaking : Taking w.interceptor j) (c : C)
    {d : Bytes} {id : UInt16} {rd : Bool} {q : Question}
    (hparse : wire.parse (d.take 1500) = some (id, rd, q)) (hq : q.qtype = typeA)
    (hspells : Spells (svc ++ dns.suffix) q.name)
    (hpack : ∀ b, b.length = 4 → (wire.pack (answerTo id rd q b)).isSome = true) (port : UInt16) :
    ∃ dst r m ic w', (interception lowerRune dns alloc wire).run w
        [.ask c d, .serve w.toServer.length, .receive w.toClients.length, .connect c dst port,
          .accept w.backlog.length true, .intercept (.handover 0 j)] = some w' ∧
      (c, r) ∈ w'.got ∧ wire.unpack r = some m ∧ m.id = id ∧ m.rcode = .success ∧
      m.answers.map (·.a) = [putBE 4 dst.toNat] ∧
      ⟨c, dst, port, some ic⟩ ∈ w'.conns ∧ w'.interceptor.calls j = .returned (.conn ic) ∧
      ic.targetSvc = svc ∧ ic.origDest = .original (.v4 dst, port.toNat) := by
  obtain ⟨⟨rfl, hfit⟩, rfl⟩ := startInterceptor_eq_ok.mp hstart
  obtain ⟨dst, hlookup, haccept⟩ :=
    lookup_of_spells (zipped_default consumes) hfit hne hmem hlow hdot hspells
  obtain ⟨r, hr⟩ := Option.isSome_iff_exists.mp (hpack (putBE 4 dst.toNat) (length_putBE _ _))
  have hresolve := run_resolve (c := c) hserving (respond_of_lookup hparse hq hlookup hr)
  obtain ⟨w', hrun, -, hgot, hconns, hcall⟩ := run_connect (w := { w with
    asked := w.asked ++ [(c, d)], got := w.got ++ [(c, r)] }) (c := c) port htaking haccept
  refine ⟨dst, r, _, _, w', Machine.run_append.mpr ⟨_, hresolve, hrun⟩, ?_,
    hwire.unpack_pack _ _ hr, rfl, rfl, rfl, ?_, hcall, rfl, rfl⟩
  · rw [hgot]
    exact List.mem_append_right _ (List.mem_singleton_self _)
  · rw [hconns]
    exact List.mem_append_right _ (List.mem_singleton_self _)

/-- `A` of `pay`. -/
def payQuestion : Question := ⟨pay ++ [dot], typeA, classINET⟩

/-- One question, in class `IN`, as it is sent. -/
def payQuestionBytes : Bytes := [3, 112, 97, 121, 0, 0, 1, 0, 1]

/-- The query with the number 7 that asks for recursion. -/
def payQuery : Bytes := [0, 7, 1, 0, 0, 1, 0, 0, 0, 0, 0, 0] ++ payQuestionBytes

/-- The reply to it up to the four bytes of the address. -/
def payReply : Bytes :=
  [0, 7, 129, 0, 0, 1, 0, 1, 0, 0, 0, 0] ++ payQuestionBytes ++
    [192, 12, 0, 1, 0, 1, 0, 0, 0, 60, 0, 4]

/-- The format, of this one query and of the answers to it. -/
def payWire : Wire where
  parse d := if d = payQuery then some (7, true, payQuestion) else none
  pack m :=
    match m.answers with
    | [r] => if m = answerTo 7 true payQuestion r.a then some (payReply ++ r.a) else none
    | _ => none
  unpack d :=
    if d.take payReply.length = payReply then
      some (answerTo 7 true payQuestion (d.drop payReply.length))
    else none

theorem payWire_lawful : payWire.Lawful := by
  refine ⟨fun m d h => ?_⟩
  simp only [payWire] at h
  split at h
  · split at h
    · rename_i r _ hm
      cases h
      simp [payWire, ← hm]
    · cases h
  · cases h

theorem start_pay :
    (startInterceptor id id .tproxy [] [] [pay] : Except (StartError Unit) Started) =
      .ok (.tproxy (defaultAllocator.allocateAll [pay]) ⟨[], []⟩) :=
  startInterceptor_eq_ok.mpr ⟨⟨rfl, one_le_usable⟩, rfl⟩

/-- The path from the agent's start to the service `pay`. -/
abbrev payPath : Machine (World Unit) (Act Unit) :=
  interception id ⟨[], []⟩ (defaultAllocator.allocateAll [pay]) payWire

/-- The listener is bound, and `runConsumer` waits in `Accept`. -/
def payUp : List (Act Unit) := [.intercept (.listen true), .intercept .startAccept]

/-- The path when all is up. -/
def payWorld : World Unit := (payPath.run payPath.init payUp).getD payPath.init

theorem payWorld_taking : Taking payWorld.interceptor 0 := ⟨by decide, rfl, rfl, rfl⟩

theorem consumed_served_pay : ∃ dst w' ic,
    payPath.run payWorld [.ask () payQuery, .serve 0, .receive 0, .connect () dst 80,
      .accept 0 true, .intercept (.handover 0 0)] = some w' ∧
    w'.interceptor.calls 0 = .returned (.conn ic) ∧ ic.targetSvc = pay := by
  obtain ⟨dst, r, m, ic, w', hrun, -, -, -, -, -, -, hcall, hsvc, -⟩ :=
    consumed_served (w := payWorld) (d := payQuery) start_pay payWire_lawful (by decide)
      List.mem_cons_self (by decide) (by decide) rfl payWorld_taking () rfl rfl
      ⟨pay, rfl, .inr rfl⟩ (fun b _ => by simp [payWire, answerTo]) 80
  exact ⟨dst, w', ic, hrun, hcall, hsvc⟩

theorem answered_conn_served_pay : ∃ w x ic r, payPath.Reach w ∧ x ∈ w.conns ∧ x.ic = some ic ∧
    ((), r) ∈ w.got ∧ ∃ d rd q, (x.client, d) ∈ w.asked ∧
      payWire.parse (d.take 1500) = some (7, rd, q) ∧
      toLower id (trimSuffix q.name [dot]) = ic.targetSvc ++ normalise id id [] := by
  obtain ⟨dst, hlookup, haccept⟩ : ∃ dst,
      DNSServer.lookup id ⟨[], []⟩ (defaultAllocator.allocateAll [pay]) (pay ++ [dot]) =
          some (.v4 dst) ∧
        accept (defaultAllocator.allocateAll [pay]) (.v4 dst) = some pay :=
    lookup_of_spells (zipped_default [pay]) one_le_usable (by decide) List.mem_cons_self
      (by decide) (by decide) ⟨pay, rfl, .inr rfl⟩
  have hpack : payWire.pack (answerTo 7 true payQuestion (putBE 4 dst.toNat)) =
      some (payReply ++ putBE 4 dst.toNat) := by simp [payWire, answerTo]
  have hup : payPath.run payPath.init payUp = some payWorld := rfl
  have hresolve := run_resolve (w := payWorld) (c := ()) (d := payQuery) rfl
    (respond_of_lookup rfl rfl hlookup hpack)
  obtain ⟨w', hrun, -, hgot, hconns, -⟩ := run_connect (w := { payWorld with
    asked := payWorld.asked ++ [((), payQuery)]
    got := payWorld.got ++ [((), payReply ++ putBE 4 dst.toNat)] }) (c := ()) 80 payWorld_taking
    haccept
  have hreach : payPath.Reach w' := Machine.reach_of_run _
    (Machine.run_append.mpr ⟨_, hup, Machine.run_append.mpr ⟨_, hresolve, hrun⟩⟩)
  have hmem : Connection.mk () dst 80 (some ⟨0, .original (.v4 dst, (80 : UInt16).toNat), pay⟩) ∈
      w'.conns := by
    rw [hconns]
    exact List.mem_append_right _ (List.mem_singleton_self _)
  have hgot : ((), payReply ++ putBE 4 dst.toNat) ∈ w'.got := by
    rw [hgot]
    exact List.mem_append_right _ (List.mem_singleton_self _)
  have hserved := (answered_conn_served start_pay payWire_lawful hreach).2 _ hmem _ rfl
  have hunpack := payWire_lawful.unpack_pack _ _ hpack
  obtain ⟨d, rd, q, hd, hparse, -, hname⟩ :=
    hserved.2.2 _ _ hgot hunpack ⟨_, List.mem_singleton_self _, rfl⟩
  exact ⟨w', _, _, _, hreach, hmem, rfl, hgot, d, rd, q, hd, hparse, hname⟩

end Results

end OutRelayAgent.Serve
