import OutRelayAgent.Lib.BigEndian
import OutRelayAgent.Lib.Machine
import Mathlib.Data.List.Nodup
import Mathlib.Logic.Function.Basic

/-!
# The forwarding plane

`forward.Conn` (`conn.go:33-132`) is a packet socket that talks to one peer by way of the relay.
`DialWithLogger` binds a UDP socket and registers it under `myAlloc`, `WriteTo` puts `peerAlloc` in
front of every packet, and `ReadFrom` takes whatever arrives at the socket for a packet of the peer.

Model of any number of such sockets, of the datagrams between them and the relay, and of the relay.

* **The network** loses, repeats and reorders datagrams. Anyone may send a datagram to anyone
  (`stranger`). A closed socket's address may be bound again.
* **The relay** is not part of this repository: a `Forwarder` is a parameter. What is assumed of it,
  `Forwarder.Lawful`, is what the package comment says (`conn.go:8-18`): a packet for allocation 0
  records the sender under the allocation in its payload, and one for another allocation is sent on,
  without its first four bytes, to where that allocation is recorded. It drops what it cannot send
  on, and may forget a registration. Nothing is assumed of what it does with anything else.

Nothing that arrives is checked, neither its sender nor its contents. So a `Conn` relies on the
registrations, and these on the number 0 never being in front of a payload.

* `Conn.nonzero`: the invariant of a `Conn`, without which a payload would be a registration.
* `delivered_from_peer`: whatever `ReadFrom` returns was handed to `WriteTo` by a `Conn` whose peer
  is the reader, in every run without strangers in which no address is bound twice.
* `packet_delivered`: a packet that is not lost arrives as it was written.
* `reused_address`, `stranger_believed`: both conditions are needed.
-/

namespace OutRelayAgent.Plane

open Lib

/-! ## `forward.Conn` -/

section Conn

variable {A ε : Type}

/-- The ids of an `orpv1.AllocGranted`. -/
structure Grant where
  myAllocation : UInt32
  peerAllocation : UInt32

inductive DialErr (ε : Type)
  /-- `forward: alloc ids must be non-zero` -/
  | zeroAlloc
  /-- `forward: bind local UDP: %w` -/
  | bind (e : ε)
  /-- `forward: register: %w` -/
  | register (e : ε)

/-- `forward.Conn`, with the local address of its socket. -/
structure Conn (A : Type) where
  udp : A
  relay : A
  peerAlloc : UInt32
  myAlloc : UInt32
  nonzero : myAlloc ≠ 0 ∧ peerAlloc ≠ 0

/-- What `register` sends. -/
def Conn.registration (c : Conn A) : Bytes := putBE 4 0 ++ putBE 4 c.myAlloc.toNat

/-- What `WriteTo` sends. -/
def Conn.packet (c : Conn A) (p : Bytes) : Bytes := putBE 4 c.peerAlloc.toNat ++ p

/-- `DialWithLogger`, in any monad that can bind a socket, send a registration from it and close
it. -/
def dialWithLogger {m : Type → Type} [Monad m] (listen : m (Except ε A))
    (register : Conn A → m (Except ε Unit)) (close : m Unit) (relay : A) (g : Grant) :
    m (Except (DialErr ε) (Conn A)) :=
  if h : g.myAllocation = 0 ∨ g.peerAllocation = 0 then pure (.error .zeroAlloc)
  else do
    match ← listen with
    | .error e => pure (.error (.bind e))
    | .ok udp =>
      let c : Conn A := ⟨udp, relay, g.peerAllocation, g.myAllocation, not_or.mp h⟩
      match ← register c with
      | .error e =>
        close
        pure (.error (.register e))
      | .ok _ => pure (.ok c)

/-- What is returned, given what came of the calls. -/
def dialled (relay : A) (g : Grant) (listen : Except ε A) (register : Except ε Unit) :
    Except (DialErr ε) (Conn A) :=
  Id.run (dialWithLogger (pure listen) (fun _ => pure register) (pure ()) relay g)

end Conn

/-! ## The plane -/

structure Datagram (A : Type) where
  src : A
  dst : A
  bytes : Bytes

/-- The socket of a `Conn`, with the datagrams that have arrived. -/
structure Sock (A : Type) where
  conn : Conn A
  isOpen : Bool
  buffer : List Bytes

/-- What a `ReadFrom` with a buffer of `size` bytes has returned. -/
structure Received (A : Type) where
  conn : ℕ
  size : ℕ
  bytes : Bytes
  remote : A

/-- The relay's forwarding service. -/
structure Forwarder (A : Type) where
  /-- The forwarding endpoint. -/
  addr : A
  State : Type
  init : State
  /-- Where the packets for an allocation are sent. -/
  table : State → UInt32 → Option A
  /-- What becomes of a datagram that gets to the endpoint: the next state, and what is sent on. -/
  handle : State → Datagram A → State × Option (Datagram A)
  forget : State → UInt32 → State

structure World {A : Type} (F : Forwarder A) where
  /-- In the order of the calls of `Dial`. -/
  socks : List (Sock A)
  flight : List (Datagram A)
  forwarder : F.State
  /-- The packets given to `WriteTo` and sent; no step reads this, nor the next one. -/
  sent : List (ℕ × Bytes)
  received : List (Received A)

inductive Act (A ε : Type)
  | dial (g : Grant) (listen : Except ε A) (register : Except ε Unit)
  | write (k : ℕ) (p : Bytes) (r : Except ε Unit)
  | read (k size : ℕ)
  | close (k : ℕ)
  /-- The relay takes a datagram. -/
  | relay (i : ℕ)
  | forget (a : UInt32)
  /-- A datagram gets to a socket. -/
  | arrive (i k : ℕ)
  | lose (i : ℕ)
  | dup (i : ℕ)
  | stranger (d : Datagram A)

namespace Forwarder

variable {A : Type}

/-- What a `Conn` relies on. -/
structure Lawful (F : Forwarder A) : Prop where
  table_init : ∀ a, F.table F.init a = none
  /-- "a registration packet (peer_alloc=0, payload=[my_alloc]) so the relay records
  (my_alloc -> our UDP src)" -/
  registers : ∀ σ src (a : UInt32),
    let r := F.handle σ ⟨src, F.addr, putBE 4 0 ++ putBE 4 a.toNat⟩
    F.table r.1 = Function.update (F.table σ) a (some src) ∧ r.2 = none
  /-- "prepends a 4-byte big-endian peer_alloc id", and the peer "reads a packet whose 4-byte prefix
  the relay already stripped" -/
  forwards : ∀ σ src (a : UInt32) p, a ≠ 0 →
    let r := F.handle σ ⟨src, F.addr, putBE 4 a.toNat ++ p⟩
    F.table r.1 = F.table σ ∧ r.2 = (F.table σ a).map fun dst => ⟨F.addr, dst, p⟩
  forgets : ∀ σ a b x, F.table (F.forget σ a) b = some x → F.table σ b = some x

theorem toNat_lt_pow (a : UInt32) : a.toNat < 256 ^ 4 := a.toNat_lt

@[simp] theorem ofNat_getBE_take (a : UInt32) (p : Bytes) :
    UInt32.ofNat (getBE ((putBE 4 a.toNat ++ p).take 4)) = a := by
  rw [getBE_take (toNat_lt_pow a), UInt32.ofNat_toNat]

/-- What a forwarder does that holds the table itself, and drops what is too short. -/
def handleTable (relay : A) (table : UInt32 → Option A) (d : Datagram A) :
    (UInt32 → Option A) × Option (Datagram A) :=
  let alloc := UInt32.ofNat (getBE (d.bytes.take 4))
  let payload := d.bytes.drop 4
  if d.bytes.length < 4 then (table, none)
  else if alloc = 0 then
    if payload.length < 4 then (table, none)
    else (Function.update table (UInt32.ofNat (getBE (payload.take 4))) (some d.src), none)
  else (table, (table alloc).map fun dst => ⟨relay, dst, payload⟩)

/-- That forwarder. -/
def ofTable (relay : A) : Forwarder A where
  addr := relay
  State := UInt32 → Option A
  init := fun _ => none
  table σ := σ
  handle := handleTable relay
  forget σ a := Function.update σ a none

theorem handleTable_registration (relay : A) (table : UInt32 → Option A) (src : A) (a : UInt32) :
    handleTable relay table ⟨src, relay, putBE 4 0 ++ putBE 4 a.toNat⟩ =
      (Function.update table a (some src), none) := by
  have halloc : UInt32.ofNat (getBE ((putBE 4 0 ++ putBE 4 a.toNat).take 4)) = 0 :=
    ofNat_getBE_take 0 _
  have hpayload : (putBE 4 0 ++ putBE 4 a.toNat).drop 4 = putBE 4 a.toNat ++ [] := by
    rw [drop_putBE, List.append_nil]
  simp only [handleTable, halloc, hpayload, ofNat_getBE_take]
  simp

theorem handleTable_packet (relay : A) (table : UInt32 → Option A) (src : A) {a : UInt32}
    (p : Bytes) (ha : a ≠ 0) : handleTable relay table ⟨src, relay, putBE 4 a.toNat ++ p⟩ =
      (table, (table a).map fun dst => ⟨relay, dst, p⟩) := by
  have halloc : UInt32.ofNat (getBE ((putBE 4 a.toNat ++ p).take 4)) = a := ofNat_getBE_take a p
  have hpayload : (putBE 4 a.toNat ++ p).drop 4 = p := drop_putBE 4 _ p
  have hlen : ¬ (putBE 4 a.toNat ++ p).length < 4 := by simp
  simp only [handleTable, halloc, hpayload, if_neg hlen, if_neg ha]

theorem ofTable_lawful (relay : A) : (ofTable relay).Lawful where
  table_init _ := rfl
  registers table src a := Prod.mk.inj (handleTable_registration relay table src a)
  forwards table src _ p ha := Prod.mk.inj (handleTable_packet relay table src p ha)
  forgets (table : UInt32 → Option A) a b x (hx : Function.update table a none b = some x) := by
    rcases eq_or_ne b a with rfl | hb
    · rw [Function.update_self] at hx
      cases hx
    · rwa [Function.update_of_ne hb] at hx

end Forwarder

section Model

variable {A ε : Type} [DecidableEq A] {F : Forwarder A}

/-- No socket is bound to the address. -/
def free (w : World F) (x : A) : Bool := w.socks.all fun s => !s.isOpen || s.conn.udp ≠ x

/-- The socket of a new `Conn` is bound, and its registration sent. -/
def World.bind (w : World F) (c : Conn A) : World F :=
  { w with
    socks := w.socks ++ [⟨c, true, []⟩]
    flight := w.flight ++ [⟨c.udp, c.relay, c.registration⟩] }

/-- The `Conn` with number `k` sends a packet. -/
def World.send (w : World F) (k : ℕ) (c : Conn A) (p : Bytes) : World F :=
  { w with
    flight := w.flight ++ [⟨c.udp, c.relay, c.packet p⟩]
    sent := w.sent ++ [(k, p)] }

/-- `ReadFrom` returns the packet `b`, and `bs` are left in the buffer. -/
def World.readFrom (w : World F) (k size : ℕ) (s : Sock A) (b : Bytes) (bs : List Bytes) :
    World F :=
  { w with
    socks := w.socks.set k { s with buffer := bs }
    received := w.received ++ [⟨k, size, b.take size, s.conn.relay⟩] }

/-- The forwarder takes the datagram `d`, which is no longer in flight. -/
def World.handle (w : World F) (d : Datagram A) (flight : List (Datagram A)) : World F :=
  { w with
    forwarder := (F.handle w.forwarder d).1
    flight := flight ++ (F.handle w.forwarder d).2.toList }

def step (w : World F) : Act A ε → Option (World F)
  | .dial g listen register =>
    match dialled F.addr g listen register with
    -- A socket whose registration could not be sent is closed at once.
    | .error _ => some w
    | .ok c =>
      if c.udp ≠ F.addr ∧ free w c.udp then some (w.bind c) else none
  | .write k p r =>
    match w.socks[k]? with
    | some s =>
      match r with
      | .ok _ => if s.isOpen then some (w.send k s.conn p) else none
      | .error _ => some w
    | none => none
  | .read k size =>
    match w.socks[k]? with
    | some s =>
      match s.buffer with
      | b :: bs => some (w.readFrom k size s b bs)
      | [] => none
    | none => none
  | .close k =>
    match w.socks[k]? with
    | some s => some { w with socks := w.socks.set k { s with isOpen := false, buffer := [] } }
    | none => none
  | .relay i =>
    match w.flight[i]? with
    | some d =>
      if d.dst = F.addr then some (w.handle d (w.flight.eraseIdx i)) else none
    | none => none
  | .forget a => some { w with forwarder := F.forget w.forwarder a }
  | .arrive i k =>
    match w.flight[i]?, w.socks[k]? with
    | some d, some s =>
      if s.isOpen ∧ d.dst = s.conn.udp then
        some { w with
          flight := w.flight.eraseIdx i
          socks := w.socks.set k { s with buffer := s.buffer ++ [d.bytes] } }
      else none
    | _, _ => none
  | .lose i => some { w with flight := w.flight.eraseIdx i }
  | .dup i => some { w with flight := w.flight ++ w.flight[i]?.toList }
  | .stranger d => some { w with flight := w.flight ++ [d] }

def plane (ε : Type) (F : Forwarder A) : Machine (World F) (Act A ε) where
  init := ⟨[], [], F.init, [], []⟩
  step := step

/-- No stranger sends anything, and no address is bound that was bound before. -/
def honest (w : World F) : Act A ε → Bool
  | .dial _ (.ok x) _ => w.socks.all fun s => s.conn.udp ≠ x
  | .stranger _ => false
  | _ => true

end Model

theorem dialled_eq_ok {A ε : Type} {relay : A} {g : Grant} {listen : Except ε A}
    {register : Except ε Unit} {c : Conn A} (h : dialled relay g listen register = .ok c) :
    listen = .ok c.udp ∧ c.relay = relay := by
  unfold dialled dialWithLogger at h
  split at h
  · cases h
  · cases listen with
    | error e => cases h
    | ok udp =>
      cases register with
      | error e => cases h
      | ok _ =>
        cases h
        exact ⟨rfl, rfl⟩

/-! ## Where everything comes from -/

section Provenance

variable {A : Type} {F : Forwarder A} {w w' : World F} {d : Datagram A} {b : Bytes} {k : ℕ}
  {c : Conn A} {s : Sock A}

def World.conns (w : World F) : List (Conn A) := w.socks.map Sock.conn

/-- A packet that was written by a `Conn` whose peer is the one at `k`. -/
def ForConn (w : World F) (k : ℕ) (b : Bytes) : Prop :=
  ∃ c j c', w.conns[k]? = some c ∧ w.conns[j]? = some c' ∧ c'.peerAlloc = c.myAlloc ∧
    (j, b) ∈ w.sent

/-- What can be in flight. -/
inductive Legit (w : World F) : Datagram A → Prop
  | registers {k : ℕ} {c : Conn A} : w.conns[k]? = some c →
      Legit w ⟨c.udp, F.addr, c.registration⟩
  | carries {k : ℕ} {c : Conn A} {p : Bytes} : w.conns[k]? = some c → (k, p) ∈ w.sent →
      Legit w ⟨c.udp, F.addr, c.packet p⟩
  | forwarded {k : ℕ} {c : Conn A} {p : Bytes} : w.conns[k]? = some c → ForConn w k p →
      Legit w ⟨F.addr, c.udp, p⟩

/-- The allocation is recorded for a `Conn` that has it. -/
def Recorded (w : World F) (a : UInt32) (x : A) : Prop :=
  ∃ (k : ℕ) (c : Conn A), w.conns[k]? = some c ∧ c.udp = x ∧ c.myAlloc = a

structure Inv (w : World F) : Prop where
  conns : ∀ c ∈ w.conns, c.relay = F.addr ∧ c.udp ≠ F.addr
  /-- An address belongs to one `Conn`. -/
  distinct : (w.conns.map Conn.udp).Nodup
  table : ∀ a x, F.table w.forwarder a = some x → Recorded w a x
  flight : ∀ d ∈ w.flight, Legit w d
  buffer : ∀ (k : ℕ) s, w.socks[k]? = some s → ∀ b ∈ s.buffer, ForConn w k b
  received : ∀ r ∈ w.received, r.remote = F.addr ∧
    ∃ b, ForConn w r.conn b ∧ r.bytes = b.take r.size

/-- No `Conn` goes away, and no packet that was sent. -/
structure Grows (w w' : World F) : Prop where
  conns : w.conns <+: w'.conns
  sent : w.sent ⊆ w'.sent

theorem Grows.getElem? (hg : Grows w w') (h : w.conns[k]? = some c) : w'.conns[k]? = some c := by
  obtain ⟨more, hmore⟩ := hg.conns
  rw [← hmore, List.getElem?_append_left (List.getElem?_eq_some_iff.mp h).1, h]

theorem Grows.forConn (hg : Grows w w') (h : ForConn w k b) : ForConn w' k b := by
  obtain ⟨c, j, c', hc, hc', halloc, hsent⟩ := h
  exact ⟨c, j, c', hg.getElem? hc, hg.getElem? hc', halloc, hg.sent hsent⟩

theorem Grows.legit (hg : Grows w w') (h : Legit w d) : Legit w' d := by
  cases h with
  | registers hc => exact .registers (hg.getElem? hc)
  | carries hc hsent => exact .carries (hg.getElem? hc) (hg.sent hsent)
  | forwarded hc hfor => exact .forwarded (hg.getElem? hc) (hg.forConn hfor)

theorem Grows.recorded (hg : Grows w w') {a : UInt32} {x : A} (h : Recorded w a x) :
    Recorded w' a x := by
  obtain ⟨k, c, hc, hx, ha⟩ := h
  exact ⟨k, c, hg.getElem? hc, hx, ha⟩

/-- What gets to the socket of a `Conn` is for that `Conn`. -/
theorem Inv.forConn_of_udp (hi : Inv w) (h : Legit w d) (hc : w.conns[k]? = some c)
    (hd : d.dst = c.udp) : ForConn w k d.bytes := by
  cases h with
  | registers | carries => exact absurd hd.symm (hi.conns c (List.mem_of_getElem? hc)).2
  | @forwarded j c' p hc' hfor =>
    have hj : (w.conns.map Conn.udp)[j]? = some c.udp := by rw [List.getElem?_map, hc', ← hd]; rfl
    have hk : (w.conns.map Conn.udp)[k]? = some c.udp := by rw [List.getElem?_map, hc]; rfl
    have hlt := (List.getElem?_eq_some_iff.mp hj).1
    obtain rfl := (List.getElem?_inj hlt hi.distinct).mp (hj.trans hk.symm)
    exact hfor

/-- The relay records only what is so, and sends on only to the peer. -/
theorem Inv.handle (hF : F.Lawful) (hi : Inv w) (h : Legit w d) (hd : d.dst = F.addr) :
    (∀ a x, F.table (F.handle w.forwarder d).1 a = some x → Recorded w a x) ∧
      ∀ d' ∈ (F.handle w.forwarder d).2, Legit w d' := by
  cases h with
  | @registers k c hc =>
    obtain ⟨htable, hout⟩ := hF.registers w.forwarder c.udp c.myAlloc
    refine ⟨fun a x hx => ?_, fun d' hd' => absurd (hout.symm.trans hd') (by simp)⟩
    have hx : Function.update (F.table w.forwarder) c.myAlloc (some c.udp) a = some x :=
      htable ▸ hx
    rcases eq_or_ne a c.myAlloc with rfl | ha
    · rw [Function.update_self] at hx
      exact ⟨k, c, hc, Option.some.inj hx, rfl⟩
    · rw [Function.update_of_ne ha] at hx
      exact hi.table a x hx
  | @carries k c p hc hsent =>
    -- The allocation in front of a payload is not 0, so no payload is a registration.
    obtain ⟨htable, hout⟩ := hF.forwards w.forwarder c.udp c.peerAlloc p c.nonzero.2
    refine ⟨fun a x hx => hi.table a x (htable ▸ hx), fun d' hd' => ?_⟩
    obtain ⟨x, hx, rfl⟩ := Option.map_eq_some_iff.mp (hout.symm.trans hd')
    obtain ⟨j, c', hc', rfl, halloc⟩ := hi.table _ x hx
    exact .forwarded hc' ⟨c', _, _, hc', hc, halloc.symm, hsent⟩
  | forwarded hc => exact absurd hd (hi.conns _ (List.mem_of_getElem? hc)).2

end Provenance

/-! ## Over a run -/

section Runs

variable {A ε : Type} [DecidableEq A] {F : Forwarder A} {w w' : World F} {a : Act A ε} {k : ℕ}
  {s s' : Sock A}

omit [DecidableEq A] in
theorem conns_getElem? (hs : w.socks[k]? = some s) : w.conns[k]? = some s.conn := by
  rw [World.conns, List.getElem?_map, hs]
  rfl

omit [DecidableEq A] in
theorem conns_set (hs : w.socks[k]? = some s) (hconn : s'.conn = s.conn) :
    (w.socks.set k s').map Sock.conn = w.conns := by
  have hk := conns_getElem? hs
  rw [List.map_set, hconn, ← (List.getElem?_eq_some_iff.mp hk).2]
  exact List.set_getElem_self _

omit [DecidableEq A] in
/-- A step that neither makes a `Conn` nor sends a packet. -/
theorem Inv.same (hi : Inv w) (hconns : w'.conns = w.conns) (hsent : w'.sent = w.sent)
    (htable : ∀ a x, F.table w'.forwarder a = some x → Recorded w a x)
    (hflight : ∀ d ∈ w'.flight, Legit w d)
    (hbuffer : ∀ (k : ℕ) s, w'.socks[k]? = some s → ∀ b ∈ s.buffer, ForConn w k b)
    (hreceived : ∀ r ∈ w'.received, r.remote = F.addr ∧
      ∃ b, ForConn w r.conn b ∧ r.bytes = b.take r.size) : Inv w' := by
  have hg : Grows w w' := ⟨hconns ▸ List.prefix_rfl, hsent ▸ List.Subset.refl _⟩
  refine ⟨hconns ▸ hi.conns, hconns ▸ hi.distinct, fun a x hx => hg.recorded (htable a x hx),
    fun d hd => hg.legit (hflight d hd), fun k s hs b hb => hg.forConn (hbuffer k s hs b hb), ?_⟩
  intro r hr
  obtain ⟨hremote, b, hb, hbytes⟩ := hreceived r hr
  exact ⟨hremote, b, hg.forConn hb, hbytes⟩

omit [DecidableEq A] in
/-- One socket gets another buffer. -/
theorem Inv.buffer_set (hi : Inv w) (hs : ∀ b ∈ s'.buffer, ForConn w k b) :
    ∀ (j : ℕ) t, (w.socks.set k s')[j]? = some t → ∀ b ∈ t.buffer, ForConn w j b := by
  intro j t ht b hb
  rw [List.getElem?_set] at ht
  split at ht
  · rename_i hjk
    split at ht
    · cases ht
      exact hjk ▸ hs b hb
    · cases ht
  · exact hi.buffer j t ht b hb

omit [DecidableEq A] in
theorem conns_bind (w : World F) (c : Conn A) : (w.bind c).conns = w.conns ++ [c] := by
  simp [World.conns, World.bind]

omit [DecidableEq A] in
theorem Inv.bind (hi : Inv w) {c : Conn A} (hrelay : c.relay = F.addr)
    (hne : c.udp ≠ F.addr) (hfresh : ∀ s ∈ w.socks, s.conn.udp ≠ c.udp) :
    Inv (w.bind c) := by
  have hg : Grows w (w.bind c) := by
    refine ⟨?_, List.Subset.refl _⟩
    rw [conns_bind]
    exact List.prefix_append _ _
  refine ⟨?_, ?_, fun a x hx => hg.recorded (hi.table a x hx), ?_, ?_, fun r hr => ?_⟩
  · rw [conns_bind]
    exact List.forall_mem_append.mpr ⟨hi.conns, List.forall_mem_singleton.mpr ⟨hrelay, hne⟩⟩
  · rw [conns_bind, List.map_append, List.map_singleton, ← List.concat_eq_append]
    refine hi.distinct.concat ?_
    simpa [World.conns] using hfresh
  · refine List.forall_mem_append.mpr ⟨fun d hd => hg.legit (hi.flight d hd), ?_⟩
    rw [List.forall_mem_singleton, hrelay]
    refine .registers (k := w.conns.length) ?_
    rw [conns_bind]
    simp
  · intro k s hs b hb
    rw [World.bind, List.getElem?_append] at hs
    split at hs
    · exact hg.forConn (hi.buffer k s hs b hb)
    · obtain rfl := List.mem_singleton.mp (List.mem_of_getElem? hs)
      cases hb
  · obtain ⟨hremote, b, hb, hbytes⟩ := hi.received r hr
    exact ⟨hremote, b, hg.forConn hb, hbytes⟩

omit [DecidableEq A] in
theorem Inv.send (hi : Inv w) (hs : w.socks[k]? = some s) (p : Bytes) :
    Inv (w.send k s.conn p) := by
  have hg : Grows w (w.send k s.conn p) := ⟨List.prefix_rfl, List.subset_append_left _ _⟩
  have hc := conns_getElem? hs
  refine ⟨hi.conns, hi.distinct, fun a x hx => hg.recorded (hi.table a x hx), ?_,
    fun j t ht b hb => hg.forConn (hi.buffer j t ht b hb), fun r hr => ?_⟩
  · refine List.forall_mem_append.mpr ⟨fun d hd => hg.legit (hi.flight d hd), ?_⟩
    rw [List.forall_mem_singleton, (hi.conns _ (List.mem_of_getElem? hc)).1]
    exact .carries hc (List.mem_append_right _ (List.mem_singleton_self _))
  · obtain ⟨hremote, b, hb, hbytes⟩ := hi.received r hr
    exact ⟨hremote, b, hg.forConn hb, hbytes⟩

theorem inv_step (hF : F.Lawful) (hi : Inv w) (ha : honest w a = true) (hst : step w a = some w') :
    Inv w' := by
  cases a with
  | dial g listen register =>
    rw [step] at hst
    split at hst
    · cases hst
      exact hi
    · rename_i c hc
      obtain ⟨rfl, hrelay⟩ := dialled_eq_ok hc
      split at hst
      · rename_i hfree
        cases hst
        exact hi.bind hrelay hfree.1 (by simpa [honest] using ha)
      · cases hst
  | write k p r =>
    rw [step] at hst
    split at hst
    · rename_i s hs
      split at hst
      · split at hst
        · cases hst
          exact hi.send hs p
        · cases hst
      · cases hst
        exact hi
    · cases hst
  | read k size =>
    rw [step] at hst
    split at hst
    · rename_i s hs
      split at hst
      · rename_i b bs hbuf
        cases hst
        have hmem : ∀ b' ∈ b :: bs, ForConn w k b' := hbuf ▸ hi.buffer k s hs
        obtain ⟨hb, hbs⟩ := List.forall_mem_cons.mp hmem
        refine hi.same (conns_set hs rfl) rfl hi.table hi.flight (hi.buffer_set hbs) ?_
        refine List.forall_mem_append.mpr ⟨hi.received, List.forall_mem_singleton.mpr ?_⟩
        exact ⟨(hi.conns _ (List.mem_of_getElem? (conns_getElem? hs))).1, b, hb, rfl⟩
      · cases hst
    · cases hst
  | close k =>
    rw [step] at hst
    split at hst
    · rename_i s hs
      cases hst
      exact hi.same (conns_set hs rfl) rfl hi.table hi.flight (hi.buffer_set nofun) hi.received
    · cases hst
  | relay i =>
    rw [step] at hst
    split at hst
    · rename_i d hd
      split at hst
      · rename_i hdst
        cases hst
        obtain ⟨htable, hout⟩ := hi.handle hF (hi.flight d (List.mem_of_getElem? hd)) hdst
        refine hi.same rfl rfl htable (List.forall_mem_append.mpr ⟨?_, ?_⟩) hi.buffer hi.received
        · exact fun d' hd' => hi.flight d' (List.mem_of_mem_eraseIdx hd')
        · exact fun d' hd' => hout d' (Option.mem_toList.mp hd')
      · cases hst
    · cases hst
  | forget a =>
    cases hst
    exact hi.same rfl rfl (fun b x hx => hi.table b x (hF.forgets _ a b x hx)) hi.flight hi.buffer
      hi.received
  | arrive i k =>
    rw [step] at hst
    split at hst
    · rename_i d s hd hs
      split at hst
      · rename_i hdst
        cases hst
        have hfor := hi.forConn_of_udp (hi.flight d (List.mem_of_getElem? hd)) (conns_getElem? hs)
          hdst.2
        refine hi.same (conns_set hs rfl) rfl hi.table ?_ (hi.buffer_set ?_) hi.received
        · exact fun d' hd' => hi.flight d' (List.mem_of_mem_eraseIdx hd')
        · exact List.forall_mem_append.mpr ⟨hi.buffer k s hs, List.forall_mem_singleton.mpr hfor⟩
      · cases hst
    · cases hst
  | lose i =>
    cases hst
    exact hi.same rfl rfl hi.table (fun d hd => hi.flight d (List.mem_of_mem_eraseIdx hd))
      hi.buffer hi.received
  | dup i =>
    cases hst
    refine hi.same rfl rfl hi.table (List.forall_mem_append.mpr ⟨hi.flight, ?_⟩) hi.buffer
      hi.received
    exact fun d hd => hi.flight d (List.mem_of_getElem? (Option.mem_toList.mp hd))
  | stranger d => cases ha

theorem reach_inv (hF : F.Lawful)
    (h : (plane ε F).ReachWhile (fun w a => honest w a = true) w) : Inv w := by
  refine Machine.ReachWhile.invariant (I := Inv) ?_
    (fun _ _ _ _ hi ha hst => inv_step hF hi ha hst) h
  constructor <;> simp [plane, World.conns, hF.table_init]

end Runs

/-! ## The results -/

section Results

variable {A ε : Type} [DecidableEq A] {F : Forwarder A} {w : World F}

/-- **What is read was written by the peer.** Without strangers and with no address bound twice,
every packet that `ReadFrom` returns is one that a `Conn` with the reader's allocation for its peer
gave to `WriteTo`, cut to the size of the reader's buffer, and comes with the relay's address. The
relay has an allocation recorded only for a `Conn` that has it, whatever the payloads are. -/
theorem delivered_from_peer (hF : F.Lawful)
    (h : (plane ε F).ReachWhile (fun w a => honest w a = true) w) :
    (∀ r ∈ w.received, r.remote = F.addr ∧ ∃ s j t p, w.socks[r.conn]? = some s ∧
      w.socks[j]? = some t ∧ t.conn.peerAlloc = s.conn.myAlloc ∧ (j, p) ∈ w.sent ∧
        r.bytes = p.take r.size) ∧
      ∀ a x, F.table w.forwarder a = some x →
        ∃ s ∈ w.socks, s.conn.udp = x ∧ s.conn.myAlloc = a := by
  have hi := reach_inv hF h
  have hsock : ∀ {k : ℕ} {c : Conn A}, w.conns[k]? = some c →
      ∃ s, w.socks[k]? = some s ∧ s.conn = c := by
    intro k c hc
    rw [World.conns, List.getElem?_map] at hc
    exact Option.map_eq_some_iff.mp hc
  refine ⟨fun r hr => ?_, fun a x hx => ?_⟩
  · obtain ⟨hremote, p, ⟨c, j, c', hc, hc', halloc, hsent⟩, hbytes⟩ := hi.received r hr
    obtain ⟨s, hs, rfl⟩ := hsock hc
    obtain ⟨t, ht, rfl⟩ := hsock hc'
    exact ⟨hremote, s, j, t, p, hs, ht, halloc, hsent, hbytes⟩
  · obtain ⟨k, c, hc, hx, ha⟩ := hi.table a x hx
    obtain ⟨s, hs, rfl⟩ := hsock hc
    exact ⟨s, List.mem_of_getElem? hs, hx, ha⟩

/-- A relay at the address 0. -/
abbrev plane₀ : Machine (World (Forwarder.ofTable 0)) (Act ℕ Unit) := plane Unit (.ofTable 0)

/-- Two `Conn`s, each the peer of the other, at the addresses 10 and 11. -/
def paired : List (Act ℕ Unit) :=
  [.dial ⟨1, 2⟩ (.ok 10) (.ok ()), .dial ⟨2, 1⟩ (.ok 11) (.ok ()), .relay 0, .relay 0]

/-- A packet of the first that looks like a registration of the second's allocation. -/
theorem delivered_from_peer_paired :
    ∃ w : World (.ofTable 0), w.received = [⟨1, 8, putBE 4 0 ++ putBE 4 2, 0⟩] ∧
      ∃ j p, (j, p) ∈ w.sent ∧ putBE 4 0 ++ putBE 4 2 = p.take 8 := by
  have hrun : (plane₀.runWhile honest plane₀.init (paired ++
      [.write 0 (putBE 4 0 ++ putBE 4 2) (.ok ()), .relay 0, .arrive 0 1, .read 1 8])).map
        World.received = some [⟨1, 8, putBE 4 0 ++ putBE 4 2, 0⟩] := rfl
  obtain ⟨w, hw, hreceived⟩ := Option.map_eq_some_iff.mp hrun
  obtain ⟨-, -, j, -, p, -, -, -, hsent, hbytes⟩ :=
    (delivered_from_peer (Forwarder.ofTable_lawful 0) (Machine.reachWhile_of_run _ hw)).1 _
      (hreceived ▸ List.mem_cons_self)
  exact ⟨w, hreceived, j, p, hsent, hbytes⟩

end Results

/-! ## Without the conditions -/

/-- **A packet for another.** The address of the first `Conn` is bound again, by a `Conn` with
allocation 3, while the relay still has it recorded for allocation 1. -/
theorem reused_address :
    ∃ w : World (.ofTable 0), plane₀.Reach w ∧ w.received = [⟨2, 8, [7], 0⟩] ∧
      w.socks.map (fun s => (s.conn.myAlloc, s.conn.peerAlloc)) = [(1, 2), (2, 1), (3, 4)] := by
  have hrun : (plane₀.run plane₀.init (paired ++ [.close 0,
      .dial ⟨3, 4⟩ (.ok 10) (.ok ()), .write 1 [7] (.ok ()), .relay 1, .arrive 1 2, .read 2 8])).map
        (fun w => (w.received, w.socks.map fun s => (s.conn.myAlloc, s.conn.peerAlloc))) =
      some ([⟨2, 8, [7], 0⟩], [(1, 2), (2, 1), (3, 4)]) := rfl
  obtain ⟨w, hw, hobs⟩ := Option.map_eq_some_iff.mp hrun
  exact ⟨w, Machine.reach_of_run _ hw, Prod.mk.inj hobs⟩

/-- **A packet from nowhere.** Whoever sends a datagram to the socket is taken for the peer. -/
theorem stranger_believed :
    ∃ w : World (.ofTable 0), plane₀.Reach w ∧ w.received = [⟨0, 8, [7], 0⟩] ∧ w.sent = [] := by
  have hrun : (plane₀.run plane₀.init
      (paired ++ [.stranger ⟨99, 10, [7]⟩, .arrive 0 0, .read 0 8])).map
        (fun w => (w.received, w.sent)) = some ([⟨0, 8, [7], 0⟩], []) := rfl
  obtain ⟨w, hw, hobs⟩ := Option.map_eq_some_iff.mp hrun
  exact ⟨w, Machine.reach_of_run _ hw, Prod.mk.inj hobs⟩

end OutRelayAgent.Plane
