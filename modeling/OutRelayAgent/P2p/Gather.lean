import OutRelayAgent.Lib.BigEndian
import OutRelayAgent.P2p.Candidates

/-!
# Gathering candidates

Model of `HostCandidates` and `hostPriority` (`candidate.go:48-91`), of the candidates `main` makes
of them, of the server-reflexive address and of `--p2p-advertise` (`main.go:241-287`), and of
`toPBCandidates` (`main.go:552-563`), by which they come into `SetLocalCandidates` and so into every
answer of the agent. The functions of `netip` are written out as the standard library has them.

* `hostPriority_eq`: an address that `HostCandidates` keeps is global unless it is the broadcast
  address, so five of the six values of `hostPriority` occur, and 60 does not.
* `dial_order`: the order in which the peer's `Check` dials what the agent has registered: the
  advertised address, the global ones, the private ones, IPv6 before IPv4 in both, and the
  server-reflexive address last of all, each group in the order of the interfaces.
-/

namespace OutRelayAgent.P2p

open Lib

section Addresses

/-- `netip.Addr`; the zero `Addr` is `none` where there can be one. -/
inductive Addr
  | v4 (a : BitVec 32)
  | v6 (a : BitVec 128) (zone : String)
  deriving DecidableEq

namespace Addr

/-- `a.b.c.d` -/
def ofOctets (a b c d : UInt8) : Addr := .v4 (BitVec.ofNat 32 (getBE [a, b, c, d]))

/-- `netip.AddrFromSlice` -/
def fromSlice (bs : Bytes) : Option Addr :=
  if bs.length = 4 then some (.v4 (BitVec.ofNat 32 (getBE bs)))
  else if bs.length = 16 then some (.v6 (BitVec.ofNat 128 (getBE bs)) "")
  else none

/-- `Unmap`: an IPv4 address in the form `::ffff:a.b.c.d` becomes one. -/
def unmap : Addr → Addr
  | .v4 a => .v4 a
  | .v6 a zone => if a >>> 32 = 0xffff#128 then .v4 (a.setWidth 32) else .v6 a zone

def is6 : Addr → Bool
  | .v4 _ => false
  | .v6 _ _ => true

/-- `127.0.0.0/8`, `::1` -/
def isLoopback (ip : Addr) : Bool :=
  match ip.unmap with
  | .v4 a => a >>> 24 = 127#32
  | .v6 a _ => a = 1#128

/-- `169.254.0.0/16`, `fe80::/10` -/
def isLinkLocalUnicast (ip : Addr) : Bool :=
  match ip.unmap with
  | .v4 a => a >>> 16 = 0xa9fe#32
  | .v6 a _ => a >>> 118 = 0x3fa#128

/-- `224.0.0.0/4`, `ff00::/8` -/
def isMulticast (ip : Addr) : Bool :=
  match ip.unmap with
  | .v4 a => a >>> 28 = 0xe#32
  | .v6 a _ => a >>> 120 = 0xff#128

/-- `0.0.0.0`, `::` -/
def isUnspecified (ip : Addr) : Bool := ip = .v4 0#32 ∨ ip = .v6 0#128 ""

/-- `255.255.255.255` -/
def broadcast : Addr := .v4 0xffffffff#32

/-- `10.0.0.0/8`, `172.16.0.0/12`, `192.168.0.0/16`, `fc00::/7` -/
def isPrivate (ip : Addr) : Bool :=
  match ip.unmap with
  | .v4 a => a >>> 24 = 10#32 ∨ a >>> 20 = 0xac1#32 ∨ a >>> 16 = 0xc0a8#32
  | .v6 a _ => a >>> 121 = 0x7e#128

def isGlobalUnicast (ip : Addr) : Bool :=
  let ip := ip.unmap
  !(ip = .v4 0#32 || ip = broadcast) && !(ip = .v6 0#128 "") && !ip.isLoopback && !ip.isMulticast &&
    !ip.isLinkLocalUnicast

theorem unmap_unmap (ip : Addr) : ip.unmap.unmap = ip.unmap := by
  cases ip with
  | v4 a => rfl
  | v6 a zone =>
    by_cases h : a >>> 32 = 0xffff#128
    · simp [unmap, h]
    · simp [unmap, h]

end Addr

end Addresses

section Gathering

variable {ε : Type}

/-- A `net.Addr` of an interface: a `*net.IPNet`, whose `IP` may be nil, or something else. -/
inductive IfaceAddr
  | ipNet (ip : Option Bytes)
  | other

def hostPriority (ip : Addr) : UInt32 :=
  let base : UInt32 := 50
  let base := if ip.isPrivate then 30 else base
  let base := if ip.isGlobalUnicast && !ip.isPrivate then 70 else base
  if ip.is6 then base + 10 else base

/-- The address as `HostCandidates` takes it, if it does. -/
def hostAddr : IfaceAddr → Option Addr
  | .other => none
  | .ipNet none => none
  | .ipNet (some bs) =>
    match Addr.fromSlice bs with
    | none => none
    | some ip =>
      let ip := ip.unmap
      if ip.isLoopback || ip.isLinkLocalUnicast || ip.isMulticast || ip.isUnspecified then none
      else some ip

/-- `HostCandidates`, given what `net.InterfaceAddrs` returns. -/
def hostCandidates (addrs : Except ε (List IfaceAddr)) (port : UInt16) : List (Candidate Addr) :=
  match addrs with
  | .error _ => []
  | .ok addrs =>
    (addrs.filterMap hostAddr).map fun ip => ⟨"host", ⟨some ip, port⟩, hostPriority ip⟩

/-- An IP and a port, from the relay's reply or from `--p2p-advertise`. -/
structure Endpoint where
  ip : Addr
  port : UInt16
  deriving DecidableEq

def srflxCandidate (e : Endpoint) : Candidate Addr := ⟨"srflx", ⟨some e.ip, e.port⟩, 20⟩

def advertisedCandidate (e : Endpoint) : Candidate Addr := ⟨"host", ⟨some e.ip, e.port⟩, 100⟩

/-- The `locals` of `main`. -/
def mainLocals (addrs : Except ε (List IfaceAddr)) (port : UInt16) (srflx : Option Endpoint)
    (advertise : Option Endpoint) : List (Candidate Addr) :=
  let locals := hostCandidates addrs port
  let locals :=
    match srflx with
    | some e => srflxCandidate e :: locals
    | none => locals
  match advertise with
  | some e => advertisedCandidate e :: locals
  | none => locals

def toPBCandidates (net : Netip Addr) (cs : List (Candidate Addr)) : List PBCandidate :=
  cs.map fun c => ⟨c.kind, net.string c.addr.addr, c.addr.port.toUInt32, c.priority⟩

end Gathering

/-! ## The classes of addresses -/

section Classes

inductive AddrClass
  | global6
  | global4
  | broadcast
  | private6
  | private4
  deriving DecidableEq

def AddrClass.priority : AddrClass → UInt32
  | .global6 => 80
  | .global4 => 70
  | .broadcast => 50
  | .private6 => 40
  | .private4 => 30

def AddrClass.descending : List AddrClass := [.global6, .global4, .broadcast, .private6, .private4]

def Addr.addrClass : Addr → AddrClass
  | .v6 a zone => if (Addr.v6 a zone).isPrivate then .private6 else .global6
  | .v4 a =>
    if (Addr.v4 a).isPrivate then .private4
    else if Addr.v4 a = Addr.broadcast then .broadcast
    else .global4

/-- What `HostCandidates` keeps. -/
structure Usable (ip : Addr) : Prop where
  unmapped : ip.unmap = ip
  loopback : ip.isLoopback = false
  linkLocal : ip.isLinkLocalUnicast = false
  multicast : ip.isMulticast = false
  specified : ip.isUnspecified = false

theorem hostAddr_usable {a : IfaceAddr} {ip : Addr} (h : hostAddr a = some ip) : Usable ip := by
  unfold hostAddr at h
  split at h
  · cases h
  · cases h
  · split at h
    · cases h
    · dsimp only at h
      split at h
      · cases h
      · rename_i hnot
        cases h
        simp only [Bool.or_eq_true, not_or, Bool.not_eq_true] at hnot
        exact ⟨Addr.unmap_unmap _, hnot.1.1.1, hnot.1.1.2, hnot.1.2, hnot.2⟩

/-- What is left is global, with one exception. -/
theorem Usable.isGlobalUnicast {ip : Addr} (h : Usable ip) :
    ip.isGlobalUnicast = decide (ip ≠ Addr.broadcast) := by
  have hspec := h.specified
  simp only [Addr.isUnspecified, decide_eq_false_iff_not, not_or] at hspec
  simp [Addr.isGlobalUnicast, h.unmapped, h.loopback, h.linkLocal, h.multicast, hspec.1, hspec.2]

theorem Usable.hostPriority_eq {ip : Addr} (h : Usable ip) :
    hostPriority ip = ip.addrClass.priority := by
  unfold hostPriority
  rw [h.isGlobalUnicast]
  cases ip with
  | v4 a =>
    by_cases hpriv : (Addr.v4 a).isPrivate = true
    · simp [Addr.addrClass, Addr.is6, hpriv, AddrClass.priority]
    · by_cases hb : Addr.v4 a = Addr.broadcast
      · have hnot : Addr.broadcast.isPrivate = false := by decide
        simp [Addr.addrClass, Addr.is6, hnot, hb, AddrClass.priority]
      · simp [Addr.addrClass, Addr.is6, hpriv, hb, AddrClass.priority]
  | v6 a zone =>
    have hb : Addr.v6 a zone ≠ Addr.broadcast := fun h => by cases h
    by_cases hpriv : (Addr.v6 a zone).isPrivate = true
    · simp [Addr.addrClass, Addr.is6, hpriv, AddrClass.priority]
    · simp [Addr.addrClass, Addr.is6, hpriv, hb, AddrClass.priority]

end Classes

/-! ## The order -/

section Order

variable {ε : Type} {addrs : Except ε (List IfaceAddr)} {port : UInt16}

/-- The host candidates of a class, in the order of the interfaces. -/
def hostsOf (addrs : Except ε (List IfaceAddr)) (port : UInt16) (k : AddrClass) :
    List (Candidate Addr) :=
  (hostCandidates addrs port).filter fun c => c.addr.addr.map Addr.addrClass = some k

theorem mem_hostCandidates {c : Candidate Addr} (h : c ∈ hostCandidates addrs port) :
    ∃ ip, Usable ip ∧ c = ⟨"host", ⟨some ip, port⟩, ip.addrClass.priority⟩ := by
  unfold hostCandidates at h
  split at h
  · cases h
  · obtain ⟨ip, hip, rfl⟩ := List.mem_map.mp h
    obtain ⟨a, -, ha⟩ := List.mem_filterMap.mp hip
    have husable := hostAddr_usable ha
    exact ⟨ip, husable, by rw [husable.hostPriority_eq]⟩

/-- The priority tells the class. -/
theorem AddrClass.priority_inj {k k' : AddrClass} (h : k.priority = k'.priority) : k = k' := by
  revert h
  cases k <;> cases k' <;> decide

theorem filter_priority_hostCandidates (k : AddrClass) :
    (hostCandidates addrs port).filter (fun c => c.priority.toNat = k.priority.toNat) =
      hostsOf addrs port k := by
  refine List.filter_congr fun c hc => ?_
  obtain ⟨ip, -, rfl⟩ := mem_hostCandidates hc
  simp only [Option.map_some, Option.some.injEq, decide_eq_decide, UInt32.toNat_inj]
  exact ⟨AddrClass.priority_inj, congrArg _⟩

/-- No host candidate has the priority of the other two. -/
theorem filter_other_hostCandidates {n : ℕ} (hn : ∀ k : AddrClass, k.priority.toNat ≠ n) :
    (hostCandidates addrs port).filter (fun c => c.priority.toNat = n) = [] := by
  rw [List.filter_eq_nil_iff]
  intro c hc hpriority
  obtain ⟨ip, -, rfl⟩ := mem_hostCandidates hc
  exact hn ip.addrClass (of_decide_eq_true hpriority)

theorem mainLocals_eq (srflx advertise : Option Endpoint) :
    mainLocals addrs port srflx advertise =
      advertise.toList.map advertisedCandidate ++ srflx.toList.map srflxCandidate ++
        hostCandidates addrs port := by
  cases srflx <;> cases advertise <;> rfl

theorem mainLocals_valid (srflx advertise : Option Endpoint) :
    ∀ c ∈ mainLocals addrs port srflx advertise, c.addr.isValid = true := by
  intro c hc
  rw [mainLocals_eq, List.mem_append, List.mem_append] at hc
  rcases hc with (hc | hc) | hc
  · obtain ⟨e, -, rfl⟩ := List.mem_map.mp hc
    rfl
  · obtain ⟨e, -, rfl⟩ := List.mem_map.mp hc
    rfl
  · obtain ⟨ip, -, rfl⟩ := mem_hostCandidates hc
    rfl

/-- The priorities there are. -/
def priorities : List ℕ := 100 :: AddrClass.descending.map (·.priority.toNat) ++ [20]

theorem priority_advertised (advertise : Option Endpoint) :
    ∀ c ∈ advertise.toList.map advertisedCandidate, c.priority.toNat = 100 := by
  intro c hc
  obtain ⟨e, -, rfl⟩ := List.mem_map.mp hc
  rfl

theorem priority_srflx (srflx : Option Endpoint) :
    ∀ c ∈ srflx.toList.map srflxCandidate, c.priority.toNat = 20 := by
  intro c hc
  obtain ⟨e, -, rfl⟩ := List.mem_map.mp hc
  rfl

theorem AddrClass.priority_mem (k : AddrClass) : k.priority.toNat ∈ priorities := by
  cases k <;> decide

theorem mainLocals_priorities (srflx advertise : Option Endpoint) :
    ∀ c ∈ mainLocals addrs port srflx advertise, c.priority.toNat ∈ priorities := by
  intro c hc
  rw [mainLocals_eq, List.mem_append, List.mem_append] at hc
  rcases hc with (hc | hc) | hc
  · rw [priority_advertised advertise c hc]
    decide
  · rw [priority_srflx srflx c hc]
    decide
  · obtain ⟨ip, -, rfl⟩ := mem_hostCandidates hc
    exact ip.addrClass.priority_mem

/-- All of one priority. -/
theorem filter_of_priority {cs : List (Candidate Addr)} {p : ℕ}
    (h : ∀ c ∈ cs, c.priority.toNat = p) (n : ℕ) :
    cs.filter (fun c => c.priority.toNat = n) = if p = n then cs else [] := by
  by_cases hn : p = n
  · rw [if_pos hn, List.filter_eq_self]
    exact fun c hc => decide_eq_true ((h c hc).trans hn)
  · rw [if_neg hn, List.filter_eq_nil_iff]
    exact fun c hc hp => hn ((h c hc).symm.trans (of_decide_eq_true hp))

theorem filter_mainLocals (srflx advertise : Option Endpoint) (n : ℕ) :
    (mainLocals addrs port srflx advertise).filter (fun c => c.priority.toNat = n) =
      (if 100 = n then advertise.toList.map advertisedCandidate else []) ++
        (if 20 = n then srflx.toList.map srflxCandidate else []) ++
        (hostCandidates addrs port).filter (fun c => c.priority.toNat = n) := by
  rw [mainLocals_eq, List.filter_append, List.filter_append,
    filter_of_priority (priority_advertised advertise), filter_of_priority (priority_srflx srflx)]

/-- The host candidates of a class are all there is of its priority. -/
theorem filter_class (srflx advertise : Option Endpoint) (k : AddrClass) :
    (mainLocals addrs port srflx advertise).filter
      (fun c => c.priority.toNat = k.priority.toNat) = hostsOf addrs port k := by
  have h100 : 100 ≠ k.priority.toNat := by cases k <;> decide
  have h20 : 20 ≠ k.priority.toNat := by cases k <;> decide
  rw [filter_mainLocals, if_neg h100, if_neg h20, filter_priority_hostCandidates]
  rfl

theorem sort_mainLocals (srflx advertise : Option Endpoint) :
    Candidate.sort (mainLocals addrs port srflx advertise) =
      advertise.toList.map advertisedCandidate ++
        AddrClass.descending.flatMap (hostsOf addrs port) ++ srflx.toList.map srflxCandidate := by
  have hhundred : (mainLocals addrs port srflx advertise).filter (fun c => c.priority.toNat = 100) =
      advertise.toList.map advertisedCandidate := by
    rw [filter_mainLocals, filter_other_hostCandidates fun k => by cases k <;> decide]
    simp
  have htwenty : (mainLocals addrs port srflx advertise).filter (fun c => c.priority.toNat = 20) =
      srflx.toList.map srflxCandidate := by
    rw [filter_mainLocals, filter_other_hostCandidates fun k => by cases k <;> decide]
    simp
  have hclass : (fun k : AddrClass => (mainLocals addrs port srflx advertise).filter
      (fun c => c.priority.toNat = k.priority.toNat)) = hostsOf addrs port := by
    funext k
    exact filter_class srflx advertise k
  rw [Candidate.sort,
    InsertionSort.sort_eq_flatMap _ _ (by decide) (mainLocals_priorities srflx advertise)]
  rw [priorities, List.flatMap_append, List.flatMap_cons, List.flatMap_map, hclass,
    List.flatMap_singleton, hhundred, htwenty]

/-- The peer gets what was registered. -/
theorem fromPB_toPBCandidates {net : Netip Addr} (hnet : net.Lawful)
    (srflx advertise : Option Endpoint) :
    fromPB net (toPBCandidates net (mainLocals addrs port srflx advertise)) =
      mainLocals addrs port srflx advertise := by
  have hwire : toPBCandidates net (mainLocals addrs port srflx advertise) =
      toPB net (mainLocals addrs port srflx advertise) := rfl
  rw [hwire, fromPB_toPB hnet (mainLocals_valid srflx advertise)]

/-- **In which order the peer dials.** -/
theorem dial_order (net : Netip Addr) (hnet : net.Lawful) (addrs : Except ε (List IfaceAddr))
    (port : UInt16) (srflx advertise : Option Endpoint) :
    Candidate.sort (fromPB net (toPBCandidates net (mainLocals addrs port srflx advertise))) =
      advertise.toList.map advertisedCandidate ++
        AddrClass.descending.flatMap (hostsOf addrs port) ++ srflx.toList.map srflxCandidate := by
  rw [fromPB_toPBCandidates hnet, sort_mainLocals]

theorem ofNat_toNat_char (b : UInt8) : UInt8.ofNat (Char.ofNat b.toNat).toNat = b := by
  have hb : b.toNat < 256 := b.toNat_lt
  have hvalid : b.toNat.isValidChar := Or.inl (by omega)
  rw [Char.ofNat, dif_pos hvalid]
  exact UInt8.ofNat_toNat

/-- An address as a text from which it can be read again, which is all that is asked of one. -/
def byteNetip : Netip Addr where
  string
    | none => "invalid IP"
    | some (.v4 a) => String.ofList ('4' :: (putBE 4 a.toNat).map fun b => Char.ofNat b.toNat)
    | some (.v6 a zone) =>
      String.ofList ('6' :: ((putBE 16 a.toNat).map (fun b => Char.ofNat b.toNat) ++ zone.toList))
  parseAddr s :=
    match s.toList with
    | '4' :: cs => some (.v4 (BitVec.ofNat 32 (getBE (cs.map fun c => UInt8.ofNat c.toNat))))
    | '6' :: cs =>
      some (.v6 (BitVec.ofNat 128 (getBE ((cs.take 16).map fun c => UInt8.ofNat c.toNat)))
        (String.ofList (cs.drop 16)))
    | _ => none

theorem map_ofNat_toNat_char (bs : Bytes) :
    (bs.map fun b => Char.ofNat b.toNat).map (fun c => UInt8.ofNat c.toNat) = bs := by
  rw [List.map_map]
  exact List.map_id'' ofNat_toNat_char bs

theorem byteNetip_lawful : byteNetip.Lawful := by
  refine ⟨fun ip => ?_⟩
  cases ip with
  | v4 a =>
    simp only [byteNetip, String.toList_ofList]
    rw [map_ofNat_toNat_char, getBE_putBE_of_lt a.isLt]
    simp
  | v6 a zone =>
    have hlen : ((putBE 16 a.toNat).map fun b => Char.ofNat b.toNat).length = 16 := by simp
    simp only [byteNetip, String.toList_ofList]
    rw [List.take_left' hlen, List.drop_left' hlen, map_ofNat_toNat_char,
      getBE_putBE_of_lt a.isLt]
    simp

/-- A private, a loopback and a global address, and a mapped port. -/
theorem dial_order_three :
    Candidate.sort (fromPB byteNetip (toPBCandidates byteNetip
      (mainLocals (ε := Unit) (.ok [.ipNet (some [10, 0, 0, 5]), .ipNet (some [127, 0, 0, 1]),
        .ipNet (some [203, 0, 113, 7])]) 7445 (some ⟨.ofOctets 198 51 100 1, 40001⟩) none))) =
      [⟨"host", ⟨some (.ofOctets 203 0 113 7), 7445⟩, 70⟩,
        ⟨"host", ⟨some (.ofOctets 10 0 0 5), 7445⟩, 30⟩,
        ⟨"srflx", ⟨some (.ofOctets 198 51 100 1), 40001⟩, 20⟩] :=
  (dial_order byteNetip byteNetip_lawful _ _ _ _).trans rfl

end Order

end OutRelayAgent.P2p
