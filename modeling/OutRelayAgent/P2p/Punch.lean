import OutRelayAgent.Lib.Machine
import OutRelayAgent.P2p.Gather
import Mathlib.Logic.Function.Basic

/-!
# Offers, answers and the punching of NATs

Two agents that promote a stream are each behind a NAT. Each of them has registered the address the
relay sees it at (`QueryServerReflexive`, `SetLocalCandidates`). The initiator's `Promote`
(`promote.go:389-456`) offers its candidates; the responder's `controlReader` (`promote.go:95-121`)
answers with its own (`AnswerOffer`) and then sends one byte to each candidate of the offer
(`warmupPunch`), from the socket that everything else of the agent uses too. The initiator then
dials the candidates of the answer (`Engine.Check`), from its own such socket.

* **The relay** passes an offer or an answer on to the other end of the stream, as long as it knows
  it. Frames may be lost; to each agent they come in order.
* **A NAT** gives each datagram of the agent's socket a source, which may depend on the destination,
  and decides on what it lets in by where the socket has sent to. Both are parameters. What
  `warmupPunch` and `SetDialer` count on are hypotheses: `Setup.Opens`, that "the initiator's
  subsequent dial matches the reply tuple of that entry and is delivered by NAT"
  (`promote.go:189-195`), and `Setup.Independent`, "keeping the src port stable across outbound
  destinations" (`check.go:83-85`).
* Any number of agents take part, in any interleaving. Which call of `Promote` gets an answer is in
  `Control/Waiters.lean`; here any that has one may use it, and `SetLocalCandidates` may be called
  at any time.

Results:

* `punch_targets`: `warmupPunch` aims at what `FromPB` makes of the same offer, apart from zones and
  cut ports. An agent without `--p2p-listen` offers port 0, at which nothing is aimed.
* `targets_registered`: whatever is dialled or punched is what `FromPB` reads in something the other
  end of a stream has registered, or is one of its host addresses.
* `hole_punched`: with such NATs, once a responder has handled an offer of the initiator's
  server-reflexive address the initiator's datagrams to its own get in, and the replies get back.
* `answer_overtakes_punch`: the answer goes out before the punch, so "by the time the initiator's
  Engine.Check dials our srflx, our NAT must already have an outbound conntrack entry" is not
  ensured.
-/

namespace OutRelayAgent.P2p

open Lib

/-! ## Where `warmupPunch` aims -/

section Targets

/-- `net.ParseIP`, which is `netip.ParseAddr` without zones; IPv4 has one form. -/
def parseIP (net : Netip Addr) (s : String) : Option Addr :=
  match net.parseAddr s with
  | none => none
  | some (.v4 a) => some (.v4 a)
  | some (.v6 a zone) => if zone = "" then some (Addr.v6 a zone).unmap else none

def punchTarget (net : Netip Addr) (c : PBCandidate) : Option Endpoint :=
  if c.ip = "" || c.port = 0 || c.port > 0xFFFF then none
  else
    match parseIP net c.ip with
    | none => none
    | some ip => some ⟨ip, c.port.toUInt16⟩

/-- `warmupPunch`; `shared` says that the dialler is a `SharedTransport`. -/
def warmupPunch (net : Netip Addr) (shared : Bool) (cands : List PBCandidate) : List Endpoint :=
  if shared then cands.filterMap (punchTarget net) else []

/-- What is dialled for a candidate. -/
def dialTarget (c : Candidate Addr) : Option Endpoint :=
  c.addr.addr.map fun ip => ⟨ip.unmap, c.addr.port⟩

def Addr.hasZone : Addr → Bool
  | .v4 _ => false
  | .v6 _ zone => zone ≠ ""

/-- What `netip` promises. -/
structure Netip.Laws (net : Netip Addr) : Prop extends net.Lawful where
  parse_empty : net.parseAddr "" = none

/-- A candidate that is punched if it is offered. -/
def punchable (c : Candidate Addr) : Bool := c.addr.port ≠ 0 && !c.addr.addr.any Addr.hasZone

theorem parseIP_eq (net : Netip Addr) (s : String) :
    parseIP net s = ((net.parseAddr s).filter fun ip => !ip.hasZone).map Addr.unmap := by
  unfold parseIP
  rcases net.parseAddr s with _ | ⟨a⟩ | ⟨a, zone⟩
  · rfl
  · rfl
  · by_cases hzone : zone = ""
    · simp [hzone, Addr.hasZone, Option.filter]
    · simp [hzone, Addr.hasZone, Option.filter]

theorem punchTarget_eq {net : Netip Addr} (hnet : net.Laws) {x : PBCandidate} {ip : Addr}
    (hip : net.parseAddr x.ip = some ip) (hport : x.port.toNat < 65536) :
    punchTarget net x =
      if punchable ⟨x.kind, ⟨some ip, x.port.toUInt16⟩, x.priority⟩ then
        some ⟨ip.unmap, x.port.toUInt16⟩ else none := by
  have hne : x.ip ≠ "" := by
    intro hempty
    rw [hempty, hnet.parse_empty] at hip
    cases hip
  have hle : ¬ x.port > 0xFFFF := by
    rw [gt_iff_lt, UInt32.lt_iff_toNat_lt, Nat.not_lt]
    exact Nat.le_of_lt_succ hport
  have hzero : x.port = 0 ↔ x.port.toUInt16 = 0 := by
    rw [← UInt32.toNat_inj, ← UInt16.toNat_inj, UInt32.toNat_toUInt16, Nat.mod_eq_of_lt hport]
    rfl
  unfold punchTarget
  rw [parseIP_eq, hip]
  by_cases hz : x.port = 0
  · simp [hz, punchable]
  · by_cases hzone : ip.hasZone = true
    · simp [hne, hz, hle, punchable, hzone, Option.filter]
    · have hnz : x.port.toUInt16 ≠ 0 := fun h => hz (hzero.mpr h)
      simp [hne, hz, hle, punchable, hzone, hnz, Option.filter]

theorem warmupPunch_eq {net : Netip Addr} (hnet : net.Laws) {w : List PBCandidate}
    (hw : PortsFit net w) :
    warmupPunch net true w = ((fromPB net w).filter punchable).filterMap dialTarget := by
  induction w with
  | nil => rfl
  | cons x w ih =>
    have ih := ih fun y hy => hw y (List.mem_cons_of_mem x hy)
    simp only [warmupPunch, if_true] at ih ⊢
    rw [List.filterMap_cons, fromPB_cons, ih]
    cases hip : net.parseAddr x.ip with
    | none =>
      have hnone : punchTarget net x = none := by
        simp [punchTarget, parseIP, hip]
      rw [hnone]
    | some ip =>
      rw [punchTarget_eq hnet hip (hw x List.mem_cons_self (by rw [hip]; rfl))]
      dsimp only
      by_cases hp : punchable ⟨x.kind, ⟨some ip, x.port.toUInt16⟩, x.priority⟩ = true
      · rw [if_pos hp, List.filter_cons_of_pos hp, List.filterMap_cons]
        rfl
      · rw [if_neg hp, List.filter_cons_of_neg hp]

/-- Nothing is aimed at port 0. -/
theorem warmupPunch_hosts {ε : Type} (net : Netip Addr) (shared : Bool)
    (addrs : Except ε (List IfaceAddr)) :
    warmupPunch net shared (toPB net (hostCandidates addrs 0)) = [] := by
  unfold warmupPunch
  split
  · rw [List.filterMap_eq_nil_iff]
    intro x hx
    obtain ⟨c, hc, rfl⟩ := List.mem_map.mp hx
    obtain ⟨ip, -, rfl⟩ := mem_hostCandidates hc
    simp [punchTarget, toPBOne]
  · rfl

/-- **The responder aims where the initiator's candidates are.** -/
theorem punch_targets {ε : Type} (net : Netip Addr) (hnet : net.Laws) :
    (∀ w, PortsFit net w →
      warmupPunch net true w = ((fromPB net w).filter punchable).filterMap dialTarget) ∧
    ∀ (addrs : Except ε (List IfaceAddr)) shared,
      warmupPunch net shared (toPB net (hostCandidates addrs 0)) = [] :=
  ⟨fun _ hw => warmupPunch_eq hnet hw, fun addrs shared => warmupPunch_hosts net shared addrs⟩

theorem byteNetip_laws : byteNetip.Laws := ⟨byteNetip_lawful, rfl⟩

/-- A link-local address with its zone, a port 0, a mapped IPv4 address, and a plain one. -/
def offeredFour : List (Candidate Addr) :=
  [⟨"host", ⟨some (.v6 0xfe800000000000000000000000000001#128 "eth0"), 7445⟩, 80⟩,
    ⟨"host", ⟨some (.ofOctets 10 0 0 5), 0⟩, 30⟩,
    ⟨"host", ⟨some (.v6 0xffff0a000005#128 ""), 7445⟩, 30⟩,
    srflxCandidate ⟨.ofOctets 198 51 100 1, 40001⟩]

theorem punch_targets_mapped :
    warmupPunch byteNetip true (toPB byteNetip offeredFour) =
      [⟨.ofOctets 10 0 0 5, 7445⟩, ⟨.ofOctets 198 51 100 1, 40001⟩] := by
  refine ((punch_targets (ε := Unit) byteNetip byteNetip_laws).1 _ fun x hx _ => ?_).trans rfl
  simp only [toPB, offeredFour, List.map_cons, List.map_nil, List.mem_cons, List.not_mem_nil,
    or_false] at hx
  rcases hx with rfl | rfl | rfl | rfl <;> decide

end Targets

end OutRelayAgent.P2p

/-! ## The system -/

namespace OutRelayAgent.Punch

open Lib P2p

section System

variable {A : Type} [DecidableEq A]

/-- What the agents find. -/
structure Setup (A : Type) where
  net : Netip Addr
  /-- Where the datagrams of an agent's socket come from, by their destination. -/
  nat : A → Endpoint → Endpoint
  /-- Whether the NAT of an agent whose socket has sent to these lets a datagram in, by its source
  and its destination. -/
  letsIn : A → List Endpoint → Endpoint → Endpoint → Bool
  relay : Endpoint
  /-- The other end of a stream, if the relay knows the stream. -/
  peerOf : A → UInt64 → Option A
  /-- The agent was started with `--p2p-listen` and is not on TCP. -/
  shared : A → Bool
  /-- What `main` has registered before `EnableP2P`. -/
  registered : A → List PBCandidate
  /-- `HostCandidates(0)` -/
  hosts : A → List (Candidate Addr)

/-- On the way to an agent, from another. -/
inductive Frame (A : Type)
  | offer (sender : A) (m : CandidateOffer)
  | answer (sender : A) (m : CandidateAnswer)

/-- Where a `controlReader` is. -/
inductive Reader (A : Type)
  | idle
  /-- In `warmupPunch`, with the endpoints that are left and those it could not write to. -/
  | punching (sender : A) (m : CandidateOffer) (todo failed : List Endpoint)

/-- An offer that has been answered and its candidates punched, but for those that failed. -/
structure Handled (A : Type) where
  responder : A
  sender : A
  offer : CandidateOffer
  failed : List Endpoint

structure World (A : Type) where
  /-- `s.localCandidates`, all it has been, the latest first. -/
  registered : A → List (List PBCandidate)
  ctrl : A → List (Frame A)
  reader : A → Reader A
  handled : List (Handled A)
  /-- The answers that came, with their senders. -/
  answers : A → List (A × CandidateAnswer)
  /-- The candidates that were dialled, with the agents whose answers they are from. -/
  dialled : A → List (A × Candidate Addr)
  /-- The endpoints that were punched, with the agents whose offers they are from. -/
  punched : A → List (A × Endpoint)
  /-- Where the agent's socket has sent datagrams to. -/
  sent : A → List Endpoint

inductive Act (A : Type)
  | setLocalCandidates (a : A) (cs : List PBCandidate)
  /-- `Promote` writes its offer. -/
  | promote (a : A) (id : UInt64)
  /-- The frame at a position does not arrive. -/
  | lose (a : A) (k : ℕ)
  /-- `controlReader` takes a frame. -/
  | receive (a : A)
  /-- The next `WriteTo` of `warmupPunch`. -/
  | punch (a : A) (ok : Bool)
  | punchDone (a : A)
  /-- `Check` dials a candidate of an answer. -/
  | dial (a : A) (k j : ℕ)

/-- The latest. -/
def World.localCandidates (w : World A) (a : A) : List PBCandidate := (w.registered a).headD []

/-- What `Promote` offers, with `s.localCandidates` as given; `main` passes no `Locals`. -/
def Setup.offered (s : Setup A) (a : A) (cs : List PBCandidate) : List PBCandidate :=
  toPB s.net (if cs = [] then s.hosts a else fromPB s.net cs)

/-- The relay passes a frame on. -/
def World.forward (w : World A) (f : Frame A) : Option A → World A
  | some b => { w with ctrl := Function.update w.ctrl b (w.ctrl b ++ [f]) }
  | none => w

def World.setReader (w : World A) (a : A) (r : Reader A) : World A :=
  { w with reader := Function.update w.reader a r }

/-- Off the control stream. -/
def World.take (w : World A) (a : A) (rest : List (Frame A)) : World A :=
  { w with ctrl := Function.update w.ctrl a rest }

def World.send (w : World A) (a : A) (e : Endpoint) : World A :=
  { w with sent := Function.update w.sent a (w.sent a ++ [e]) }

def World.notePunch (w : World A) (a b : A) (e : Endpoint) : World A :=
  { w with punched := Function.update w.punched a (w.punched a ++ [(b, e)]) }

def World.noteDial (w : World A) (a b : A) (c : Candidate Addr) : World A :=
  { w with dialled := Function.update w.dialled a (w.dialled a ++ [(b, c)]) }

def World.gotAnswer (w : World A) (a b : A) (m : CandidateAnswer) : World A :=
  { w with answers := Function.update w.answers a (w.answers a ++ [(b, m)]) }

def World.note (w : World A) (h : Handled A) : World A := { w with handled := w.handled ++ [h] }

/-- `AnswerOffer` -/
def answerOffer (locals : List PBCandidate) (offer : CandidateOffer) : CandidateAnswer :=
  ⟨offer.streamId, locals⟩

def step (s : Setup A) (w : World A) : Act A → Option (World A)
  | .setLocalCandidates a cs =>
    some { w with registered := Function.update w.registered a (cs :: w.registered a) }
  | .promote a id =>
    some (w.forward (.offer a ⟨id, s.offered a (w.localCandidates a)⟩) (s.peerOf a id))
  | .lose a k => some (w.take a ((w.ctrl a).eraseIdx k))
  | .receive a =>
    match w.reader a, w.ctrl a with
    | .idle, .offer b m :: rest =>
      -- the answer goes out first
      some (((w.take a rest).forward (.answer a (answerOffer (w.localCandidates a) m))
        (s.peerOf a m.streamId)).setReader a
          (.punching b m (warmupPunch s.net (s.shared a) m.candidates) []))
    | .idle, .answer b m :: rest => some ((w.take a rest).gotAnswer a b m)
    | _, _ => none
  | .punch a ok =>
    match w.reader a with
    | .punching b m (e :: todo) failed =>
      if ok then some (((w.setReader a (.punching b m todo failed)).send a e).notePunch a b e)
      else some (w.setReader a (.punching b m todo (failed ++ [e])))
    | _ => none
  | .punchDone a =>
    match w.reader a with
    | .punching b m [] failed => some ((w.setReader a .idle).note ⟨a, b, m, failed⟩)
    | _ => none
  | .dial a k j =>
    match (w.answers a)[k]? with
    | some (b, m) =>
      match (Candidate.sort (fromPB s.net m.candidates))[j]? with
      | some c =>
        match dialTarget c with
        -- without `SetDialer` each dial has a socket of its own
        | some e =>
          if s.shared a then some ((w.send a e).noteDial a b c) else some (w.noteDial a b c)
        | none => none
      | none => none
    | none => none

def agents (s : Setup A) : Machine (World A) (Act A) where
  init :=
    { registered := fun a => [s.registered a]
      ctrl := fun _ => []
      reader := fun _ => .idle
      handled := []
      answers := fun _ => []
      dialled := fun _ => []
      punched := fun _ => []
      -- the connection to the relay
      sent := fun _ => [s.relay] }
  step := step s

/-- The NAT gives the socket one source. -/
def Setup.Independent (s : Setup A) (a : A) : Prop := ∀ e, s.nat a e = s.nat a s.relay

/-- A datagram lets the replies in: from where it was sent to, to where it came from. -/
def Setup.Opens (s : Setup A) (a : A) : Prop :=
  ∀ sent, ∀ e ∈ sent, s.letsIn a sent e (s.nat a e) = true

/-- A NAT that lets in replies only, which the source calls port-restricted. -/
def portRestricted (nat : Endpoint → Endpoint) (sent : List Endpoint)
    (source destination : Endpoint) : Bool :=
  sent.any fun e => e = source ∧ nat e = destination

theorem portRestricted_of_mem (nat : Endpoint → Endpoint) {sent : List Endpoint} {e : Endpoint}
    (he : e ∈ sent) : portRestricted nat sent e (nat e) = true := by
  rw [portRestricted, List.any_eq_true]
  exact ⟨e, he, decide_eq_true ⟨rfl, rfl⟩⟩

end System

/-! ## Where everything comes from -/

section Provenance

variable {A : Type} {s : Setup A} {w w' : World A}

/-- The agent has registered what it offers here. -/
def Setup.OfferOf (s : Setup A) (w : World A) (a : A) (m : CandidateOffer) : Prop :=
  ∃ cs ∈ w.registered a, m.candidates = s.offered a cs

def Setup.Genuine (s : Setup A) (w : World A) : Frame A → Prop
  | .offer a m => s.OfferOf w a m
  | .answer a m => m.candidates ∈ w.registered a

/-- The endpoints are dealt with: written to, or not to be written to. -/
def Dealt (w : World A) (a : A) (failed es : List Endpoint) : Prop :=
  ∀ e ∈ es, e ∈ w.sent a ∨ e ∈ failed

def Setup.ReaderOk (s : Setup A) (w : World A) (a : A) : Reader A → Prop
  | .idle => True
  | .punching b m todo failed => s.OfferOf w b m ∧ ∃ done,
      warmupPunch s.net (s.shared a) m.candidates = done ++ todo ∧ Dealt w a failed done

structure Inv (s : Setup A) (w : World A) : Prop where
  registered : ∀ a, w.registered a ≠ []
  ctrl : ∀ a, ∀ f ∈ w.ctrl a, s.Genuine w f
  reader : ∀ a, s.ReaderOk w a (w.reader a)
  handled : ∀ h ∈ w.handled, s.OfferOf w h.sender h.offer ∧
    Dealt w h.responder h.failed (warmupPunch s.net (s.shared h.responder) h.offer.candidates)
  answers : ∀ a, ∀ x ∈ w.answers a, x.2.candidates ∈ w.registered x.1
  dialled : ∀ a, ∀ x ∈ w.dialled a, (∃ cs ∈ w.registered x.1, x.2 ∈ fromPB s.net cs) ∧
    (s.shared a = true → ∀ e ∈ dialTarget x.2, e ∈ w.sent a)
  punched : ∀ a, ∀ x ∈ w.punched a, ∃ cs ∈ w.registered x.1,
    x.2 ∈ warmupPunch s.net true (s.offered x.1 cs)

theorem Inv.localCandidates_mem (h : Inv s w) (a : A) :
    w.localCandidates a ∈ w.registered a := by
  unfold World.localCandidates
  cases hr : w.registered a with
  | nil => exact absurd hr (h.registered a)
  | cons cs rest => exact List.mem_cons_self

/-- More has been registered and sent to, and nothing else has changed. -/
structure Grows (w w' : World A) : Prop where
  registered : ∀ a, w.registered a ⊆ w'.registered a
  sent : ∀ a, w.sent a ⊆ w'.sent a

theorem Setup.OfferOf.grows {a : A} {m : CandidateOffer} (h : s.OfferOf w a m) (hg : Grows w w') :
    s.OfferOf w' a m := by
  obtain ⟨cs, hcs, hm⟩ := h
  exact ⟨cs, hg.registered a hcs, hm⟩

theorem Dealt.grows {a : A} {failed es : List Endpoint} (h : Dealt w a failed es)
    (hg : Grows w w') : Dealt w' a failed es :=
  fun e he => (h e he).imp_left fun hs => hg.sent a hs

theorem Setup.Genuine.grows {f : Frame A} (h : s.Genuine w f) (hg : Grows w w') :
    s.Genuine w' f := by
  cases f with
  | offer a m => exact Setup.OfferOf.grows h hg
  | answer a m => exact hg.registered a h

theorem Setup.ReaderOk.grows {a : A} {r : Reader A} (h : s.ReaderOk w a r) (hg : Grows w w') :
    s.ReaderOk w' a r := by
  cases r with
  | idle => trivial
  | punching b m todo failed =>
    obtain ⟨hoffer, done, hsplit, hdealt⟩ := h
    exact ⟨hoffer.grows hg, done, hsplit, hdealt.grows hg⟩

theorem Inv.note (h : Inv s w) {x : Handled A} (hoffer : s.OfferOf w x.sender x.offer)
    (hx : Dealt w x.responder x.failed
      (warmupPunch s.net (s.shared x.responder) x.offer.candidates)) : Inv s (w.note x) := by
  refine ⟨h.registered, h.ctrl, h.reader, fun y hy => ?_, h.answers, h.dialled, h.punched⟩
  rcases List.mem_append.mp hy with hy | hy
  · exact h.handled y hy
  · rw [List.mem_singleton.mp hy]
    exact ⟨hoffer, hx⟩

theorem Inv.grows (h : Inv s w) {registered : A → List (List PBCandidate)}
    {sent : A → List Endpoint} (hreg : ∀ a, w.registered a ⊆ registered a)
    (hsent : ∀ a, w.sent a ⊆ sent a) : Inv s { w with registered := registered, sent := sent } := by
  have hg : Grows w { w with registered := registered, sent := sent } := ⟨hreg, hsent⟩
  constructor
  · intro a hnil
    exact h.registered a (List.eq_nil_of_subset_nil (hnil ▸ hreg a))
  · exact fun a f hf => (h.ctrl a f hf).grows hg
  · exact fun a => (h.reader a).grows hg
  · exact fun x hx => ⟨(h.handled x hx).1.grows hg, (h.handled x hx).2.grows hg⟩
  · exact fun a x hx => hreg x.1 (h.answers a x hx)
  · intro a x hx
    obtain ⟨⟨cs, hcs, hc⟩, hs⟩ := h.dialled a x hx
    exact ⟨⟨cs, hreg x.1 hcs, hc⟩, fun ha e he => hsent a (hs ha e he)⟩
  · intro a x hx
    obtain ⟨cs, hcs, he⟩ := h.punched a x hx
    exact ⟨cs, hreg x.1 hcs, he⟩

variable [DecidableEq A]

/-- One more in the list of one agent. -/
theorem forall_mem_update_concat {B : Type} {P : A → B → Prop} {f : A → List B} {a : A} {x : B}
    (h : ∀ b, ∀ y ∈ f b, P b y) (hx : P a x) :
    ∀ b, ∀ y ∈ Function.update f a (f a ++ [x]) b, P b y := by
  refine (Function.forall_update_iff f fun b l => ∀ y ∈ l, P b y).mpr ⟨?_, fun b _ => h b⟩
  exact List.forall_mem_append.mpr ⟨h a, List.forall_mem_singleton.mpr hx⟩

@[simp] theorem World.registered_forward (w : World A) (f : Frame A) (b : Option A) :
    (w.forward f b).registered = w.registered := by
  cases b <;> rfl

theorem Inv.forward (h : Inv s w) {f : Frame A} (hf : s.Genuine w f) (b : Option A) :
    Inv s (w.forward f b) := by
  cases b with
  | none => exact h
  | some b =>
    exact ⟨h.registered, forall_mem_update_concat h.ctrl hf, h.reader, h.handled, h.answers,
      h.dialled, h.punched⟩

theorem Inv.take (h : Inv s w) (a : A) {rest : List (Frame A)} (hrest : rest ⊆ w.ctrl a) :
    Inv s (w.take a rest) := by
  refine ⟨h.registered, ?_, h.reader, h.handled, h.answers, h.dialled, h.punched⟩
  exact (Function.forall_update_iff _ fun _ l => ∀ g ∈ l, s.Genuine w g).mpr
    ⟨fun g hg => h.ctrl a g (hrest hg), fun a _ => h.ctrl a⟩

theorem Inv.setReader (h : Inv s w) {a : A} {r : Reader A} (hr : s.ReaderOk w a r) :
    Inv s (w.setReader a r) := by
  refine ⟨h.registered, h.ctrl, ?_, h.handled, h.answers, h.dialled, h.punched⟩
  exact (Function.forall_update_iff _ fun b r => s.ReaderOk w b r).mpr ⟨hr, fun b _ => h.reader b⟩

theorem subset_update_concat (f : A → List Endpoint) (a : A) (e : Endpoint) (b : A) :
    f b ⊆ Function.update f a (f a ++ [e]) b := by
  rcases eq_or_ne b a with rfl | hne
  · simp
  · simp [hne]

theorem Inv.send (h : Inv s w) (a : A) (e : Endpoint) : Inv s (w.send a e) :=
  h.grows (fun _ => List.Subset.refl _) (subset_update_concat w.sent a e)

theorem Inv.notePunch (h : Inv s w) {a b : A} {e : Endpoint}
    (he : ∃ cs ∈ w.registered b, e ∈ warmupPunch s.net true (s.offered b cs)) :
    Inv s (w.notePunch a b e) :=
  ⟨h.registered, h.ctrl, h.reader, h.handled, h.answers, h.dialled,
    forall_mem_update_concat (x := (b, e)) h.punched he⟩

theorem Inv.gotAnswer (h : Inv s w) {a b : A} {m : CandidateAnswer}
    (hm : m.candidates ∈ w.registered b) : Inv s (w.gotAnswer a b m) :=
  ⟨h.registered, h.ctrl, h.reader, h.handled, forall_mem_update_concat (x := (b, m)) h.answers hm,
    h.dialled, h.punched⟩

theorem Inv.noteDial (h : Inv s w) {a b : A} {c : Candidate Addr}
    (hc : ∃ cs ∈ w.registered b, c ∈ fromPB s.net cs)
    (hsent : s.shared a = true → ∀ e ∈ dialTarget c, e ∈ w.sent a) :
    Inv s (w.noteDial a b c) :=
  ⟨h.registered, h.ctrl, h.reader, h.handled, h.answers,
    forall_mem_update_concat (x := (b, c)) h.dialled ⟨hc, hsent⟩, h.punched⟩

theorem inv_init (s : Setup A) : Inv s (agents s).init where
  registered a := List.cons_ne_nil _ _
  ctrl a f hf := by cases hf
  reader a := trivial
  handled h hh := by cases hh
  answers a x hx := by cases hx
  dialled a x hx := by cases hx
  punched a x hx := by cases hx

theorem mem_warmupPunch_true {net : Netip Addr} {shared : Bool} {cands : List PBCandidate}
    {e : Endpoint} (h : e ∈ warmupPunch net shared cands) : e ∈ warmupPunch net true cands := by
  cases shared
  · cases h
  · exact h

/-- The next endpoint of `warmupPunch`. -/
theorem Inv.punch {a b : A} {m : CandidateOffer} {e : Endpoint} {todo failed : List Endpoint}
    (h : Inv s w) (hr : w.reader a = .punching b m (e :: todo) failed) (ok : Bool) :
    Inv s (if ok then ((w.setReader a (.punching b m todo failed)).send a e).notePunch a b e
      else w.setReader a (.punching b m todo (failed ++ [e]))) := by
  have hreader := h.reader a
  rw [hr] at hreader
  obtain ⟨⟨cs, hcs, hm⟩, done, hsplit, hdealt⟩ := hreader
  have hnext : warmupPunch s.net (s.shared a) m.candidates = (done ++ [e]) ++ todo := by
    rw [hsplit, List.append_assoc]
    rfl
  cases ok
  · -- the write fails
    refine h.setReader ⟨⟨cs, hcs, hm⟩, done ++ [e], hnext, fun x hx => ?_⟩
    rcases List.mem_append.mp hx with hx | hx
    · exact (hdealt x hx).imp_right fun hf => List.mem_append_left _ hf
    · exact .inr (List.mem_append_right _ hx)
  · have hsent : Inv s (w.send a e) := h.send a e
    have hmem : e ∈ warmupPunch s.net true (s.offered b cs) := by
      rw [← hm]
      have hmine : e ∈ warmupPunch s.net (s.shared a) m.candidates := by
        rw [hsplit]
        simp
      exact mem_warmupPunch_true hmine
    have hreader : Inv s ((w.send a e).setReader a (.punching b m todo failed)) := by
      refine hsent.setReader ⟨⟨cs, hcs, hm⟩, done ++ [e], hnext, fun x hx => ?_⟩
      rcases List.mem_append.mp hx with hx | hx
      · exact (hdealt x hx).imp_left fun hs => subset_update_concat w.sent a e a hs
      · rw [List.mem_singleton.mp hx]
        exact .inl (by simp [World.send])
    exact hreader.notePunch ⟨cs, hcs, hmem⟩

theorem inv_step {a : Act A} (h : Inv s w) (hs : step s w a = some w') : Inv s w' := by
  cases a with
  | setLocalCandidates a cs =>
    cases hs
    refine h.grows (fun b => ?_) fun _ => List.Subset.refl _
    rcases eq_or_ne b a with rfl | hne
    · simp
    · simp [hne]
  | promote a id =>
    cases hs
    have hoffer : s.OfferOf w a ⟨id, s.offered a (w.localCandidates a)⟩ :=
      ⟨_, h.localCandidates_mem a, rfl⟩
    exact h.forward (f := .offer a _) hoffer _
  | lose a k =>
    cases hs
    exact h.take a (List.eraseIdx_subset)
  | receive a =>
    simp only [step] at hs
    split at hs
    · rename_i b m rest hreader hctrl
      cases hs
      have hoffer : s.OfferOf w b m :=
        h.ctrl a (.offer b m) (by rw [hctrl]; exact List.mem_cons_self)
      have htake : Inv s (w.take a rest) :=
        h.take a (by rw [hctrl]; exact List.subset_cons_self _ _)
      have hanswered := htake.forward (f := .answer a (answerOffer (w.localCandidates a) m))
        (h.localCandidates_mem a) (s.peerOf a m.streamId)
      refine hanswered.setReader ⟨?_, [], rfl, fun e he => by cases he⟩
      obtain ⟨cs, hcs, hm⟩ := hoffer
      exact ⟨cs, by rwa [World.registered_forward], hm⟩
    · rename_i b m rest hreader hctrl
      cases hs
      have hanswer : m.candidates ∈ w.registered b :=
        h.ctrl a (.answer b m) (by rw [hctrl]; exact List.mem_cons_self)
      have htake : Inv s (w.take a rest) :=
        h.take a (by rw [hctrl]; exact List.subset_cons_self _ _)
      exact htake.gotAnswer hanswer
    · cases hs
  | punch a ok =>
    simp only [step] at hs
    split at hs
    · rename_i hr
      have hinv := h.punch hr ok
      cases ok <;> cases hs <;> exact hinv
    · cases hs
  | punchDone a =>
    simp only [step] at hs
    split at hs
    · rename_i b m failed hr
      cases hs
      have hreader := h.reader a
      rw [hr] at hreader
      obtain ⟨hoffer, done, hsplit, hdealt⟩ := hreader
      rw [List.append_nil] at hsplit
      have hidle : Inv s (w.setReader a .idle) := h.setReader trivial
      exact hidle.note hoffer (by rw [hsplit]; exact hdealt)
    · cases hs
  | dial a k j =>
    simp only [step] at hs
    split at hs
    · rename_i b m hanswer
      split at hs
      · rename_i c hc
        have hm : m.candidates ∈ w.registered b := h.answers a (b, m) (List.mem_of_getElem? hanswer)
        have hmem : c ∈ fromPB s.net m.candidates :=
          (sort_descending _).perm.mem_iff.mp (List.mem_of_getElem? hc)
        split at hs
        · rename_i e he
          split at hs
          · cases hs
            refine (h.send a e).noteDial ⟨_, hm, hmem⟩ fun _ e' he' => ?_
            rw [he] at he'
            cases he'
            simp [World.send]
          · rename_i hshared
            cases hs
            exact h.noteDial ⟨_, hm, hmem⟩ fun hs => absurd hs hshared
        · cases hs
      · cases hs
    · cases hs

theorem reach_inv (h : (agents s).Reach w) : Inv s w :=
  Machine.Reach.invariant (inv_init s) (fun _ _ _ hw hs => inv_step hw hs) h

/-- **What is dialled or punched has been registered by the other end.** -/
theorem targets_registered (h : (agents s).Reach w) (a : A) :
    (∀ b c, (b, c) ∈ w.dialled a → ∃ cs ∈ w.registered b, c ∈ fromPB s.net cs) ∧
    ∀ b e, (b, e) ∈ w.punched a →
      ∃ cs ∈ w.registered b, e ∈ warmupPunch s.net true (s.offered b cs) := by
  have hw := reach_inv h
  exact ⟨fun b c hc => (hw.dialled a (b, c) hc).1, fun b e he => hw.punched a (b, e) he⟩

end Provenance

/-! ## Through the NATs -/

section Through

variable {A : Type} {s : Setup A} {w : World A}

/-- An address as a relay can see it. -/
structure Plain (e : Endpoint) : Prop where
  zone : e.ip.hasZone = false
  unmapped : e.ip.unmap = e.ip
  port : e.port ≠ 0

/-- A server-reflexive address that is offered is punched. -/
theorem mem_warmupPunch_srflx (hnet : s.net.Laws) {e : Endpoint} (he : Plain e)
    {cs : List PBCandidate} (hcs : toPBOne s.net (srflxCandidate e) ∈ cs) :
    e ∈ warmupPunch s.net true cs := by
  refine List.mem_filterMap.mpr ⟨_, hcs, ?_⟩
  have hport : (toPBOne s.net (srflxCandidate e)).port.toNat < 65536 := by
    simpa [toPBOne, srflxCandidate] using e.port.toNat_lt
  rw [punchTarget_eq hnet (hnet.parse_string e.ip) hport]
  simp [punchable, toPBOne, srflxCandidate, he.zone, he.port, he.unmapped]

/-- **A punched NAT lets the initiator in.** Of the initiator's offers only the one that was handled
matters, whatever it has registered before and since. -/
theorem hole_punched [DecidableEq A] (h : (agents s).Reach w) (hnet : s.net.Laws) {x : Handled A}
    (hx : x ∈ w.handled) (hshared : s.shared x.responder = true)
    (hsender : s.Independent x.sender ∧ s.Opens x.sender)
    (hresponder : s.Independent x.responder ∧ s.Opens x.responder)
    (hplain : Plain (s.nat x.sender s.relay))
    (hoffered : toPBOne s.net (srflxCandidate (s.nat x.sender s.relay)) ∈ x.offer.candidates)
    (hwritten : s.nat x.sender s.relay ∉ x.failed) :
    (let dst := s.nat x.responder s.relay
     s.letsIn x.responder (w.sent x.responder) (s.nat x.sender dst) dst = true) ∧
    ∀ b c, (b, c) ∈ w.dialled x.sender → s.shared x.sender = true →
      dialTarget c = some (s.nat x.responder s.relay) →
      let dst := s.nat x.sender s.relay
      s.letsIn x.sender (w.sent x.sender) (s.nat x.responder dst) dst = true := by
  have hw := reach_inv h
  constructor
  · have hmem := mem_warmupPunch_srflx hnet hplain hoffered
    rw [← hshared] at hmem
    have hsent := ((hw.handled x hx).2 _ hmem).resolve_right hwritten
    have hin := hresponder.2 _ _ hsent
    rw [hresponder.1] at hin
    dsimp only
    rwa [hsender.1]
  · intro b c hc hshared' htarget
    have hsent := (hw.dialled x.sender (b, c) hc).2 hshared' _ htarget
    have hin := hsender.2 _ _ hsent
    rw [hsender.1] at hin
    dsimp only
    rwa [hresponder.1]

/-- Where the datagrams of two agents come from. -/
def mappedTo (a : Bool) : Endpoint :=
  if a then ⟨.ofOctets 198 51 100 1, 40001⟩ else ⟨.ofOctets 203 0 113 9, 40002⟩

/-- Two agents behind NATs, that share stream 7. -/
def twoNats : Setup Bool where
  net := byteNetip
  nat a _ := mappedTo a
  letsIn a := portRestricted fun _ => mappedTo a
  relay := ⟨.ofOctets 192 0 2 1, 7443⟩
  peerOf a id := if id = 7 then some (!a) else none
  shared _ := true
  registered a := toPB byteNetip [srflxCandidate (mappedTo a)]
  hosts _ := []

/-- Offer, answer, punch, and then the dial. -/
def meeting : List (Act Bool) :=
  [.promote false 7, .receive true, .punch true true, .punchDone true, .receive false,
    .dial false 0 0]

/-- The world after some steps. -/
def after (as : List (Act Bool)) : World Bool :=
  ((agents twoNats).run (agents twoNats).init as).getD (agents twoNats).init

theorem reach_meeting : (agents twoNats).Reach (after meeting) := Machine.reach_of_run meeting rfl

theorem targets_registered_meeting :
    (true, srflxCandidate ⟨.ofOctets 198 51 100 1, 40001⟩) ∈ (after meeting).dialled false ∧
      ∃ cs ∈ (after meeting).registered true,
        srflxCandidate ⟨.ofOctets 198 51 100 1, 40001⟩ ∈ fromPB byteNetip cs := by
  have hdialled : (true, srflxCandidate ⟨.ofOctets 198 51 100 1, 40001⟩) ∈
      (after meeting).dialled false := by
    have h : (after meeting).dialled false =
        [(true, srflxCandidate ⟨.ofOctets 198 51 100 1, 40001⟩)] := rfl
    rw [h]
    exact List.mem_singleton_self _
  exact ⟨hdialled, (targets_registered reach_meeting false).1 _ _ hdialled⟩

theorem twoNats_opens (a : Bool) : twoNats.Independent a ∧ twoNats.Opens a :=
  ⟨fun _ => rfl, fun _ _ he => portRestricted_of_mem _ he⟩

/-- The initiator has registered an empty list since. -/
theorem hole_punched_meeting :
    let w := after (meeting ++ [.setLocalCandidates false []])
    twoNats.letsIn true (w.sent true) (mappedTo false) (mappedTo true) = true := by
  have hreach : (agents twoNats).Reach (after (meeting ++ [.setLocalCandidates false []])) :=
    Machine.reach_of_run (meeting ++ [.setLocalCandidates false []]) rfl
  have hhandled : (after (meeting ++ [.setLocalCandidates false []])).handled = [⟨true, false,
      ⟨7, toPB byteNetip [srflxCandidate (mappedTo false)]⟩, []⟩] := rfl
  exact (hole_punched hreach byteNetip_laws (x := ⟨true, false, _, _⟩)
    (by rw [hhandled]; exact List.mem_singleton_self _) rfl (twoNats_opens false)
    (twoNats_opens true) ⟨rfl, rfl, by decide⟩ (List.mem_singleton_self _) List.not_mem_nil).1

/-- The same without the punch, so far. -/
def overtaking : List (Act Bool) :=
  [.promote false 7, .receive true, .receive false, .dial false 0 0]

/-- **The answer may overtake the punch.** The initiator has the answer and dials, and the NAT does
not let it in. -/
theorem answer_overtakes_punch :
    ∃ w, (agents twoNats).Reach w ∧
      (w.dialled false).map (fun x => dialTarget x.2) = [some (twoNats.nat true twoNats.relay)] ∧
      twoNats.letsIn true (w.sent true) (mappedTo false) (mappedTo true) = false :=
  ⟨after overtaking, Machine.reach_of_run overtaking rfl, rfl, rfl⟩

end Through

end OutRelayAgent.Punch
