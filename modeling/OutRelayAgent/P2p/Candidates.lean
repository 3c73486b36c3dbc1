import OutRelayAgent.P2p.Promoter
import Mathlib.Data.List.Forall2

/-!
# Candidates: their order and their wire form

`candidate.Sort` (`candidate.go:169-180`) decides which path a stream is promoted to, `toPB` and
`FromPB` (`promoter.go:131-164`) carry candidates over the relay. The definitions are in
`P2p/Promoter.lean`.

* `sort_stable_descending`: `Sort` is a stable descending sort, and its loops end without an index
  out of range.
* `decode_faithful_iff`: `FromPB` keeps exactly the entries that denote an endpoint, as they are, if
  and only if no entry with a readable IP has a port beyond 16 bits. The wire format has ports of 32
  bits, and `FromPB` cuts them off where the doc says that invalid addresses are dropped. `FromPB`
  inverts `toPB`.
* `cut_port`: a port that is in no entry.
-/

namespace OutRelayAgent.P2p

open Lib

variable {IP : Type}

/-! ## The order -/

/-- `out` is `cs` in descending order of priority, equal priorities in the order of `cs`. -/
structure Descending (cs out : List (Candidate IP)) : Prop where
  perm : out.Perm cs
  sorted : out.Pairwise fun a b => b.priority ≤ a.priority
  stable : ∀ p : UInt32, out.filter (·.priority = p) = cs.filter (·.priority = p)

theorem sort_descending (cs : List (Candidate IP)) : Descending cs (Candidate.sort cs) := by
  obtain ⟨t, ht, hperm, hsorted⟩ :=
    InsertionSort.sort_zipIdx (fun c : Candidate IP => c.priority.toNat) cs
  refine ⟨?_, ?_, fun p => ?_⟩
  · have h := hperm.map Prod.fst
    rwa [ht, List.zipIdx_map_fst] at h
  · rw [Candidate.sort, ← ht, List.pairwise_map]
    refine hsorted.imp fun {x y} h => ?_
    rw [UInt32.le_iff_toNat_le]
    rcases h with hlt | ⟨heq, -⟩
    · exact Nat.le_of_lt hlt
    · exact Nat.le_of_eq heq.symm
  · have h := InsertionSort.filter_sort (fun c : Candidate IP => c.priority.toNat) cs p.toNat
    simpa only [UInt32.toNat_inj, Candidate.sort] using h

/-- The loops of `Sort`, step by step. -/
abbrev sortLoops (cs : List (Candidate IP)) :
    Machine (InsertionSort.Loop (Candidate IP)) Unit :=
  InsertionSort.loops (fun c => c.priority.toNat) cs

/-- **`Sort` is a stable descending sort.** Its loops come to an end, at which they return the
sorted list, and use no index out of range. -/
theorem sort_stable_descending (cs : List (Candidate IP)) :
    Descending cs (Candidate.sort cs) ∧
      (∃ n, ∀ as s, (sortLoops cs).run (sortLoops cs).init as = some s → as.length ≤ n) ∧
      (∀ s, (sortLoops cs).Reach s → s ≠ .panicked ∧
        ((sortLoops cs).step s () = none → s = .returned (Candidate.sort cs))) ∧
      Candidate.sort (Candidate.sort cs) = Candidate.sort cs := by
  obtain ⟨hbound, hend⟩ := InsertionSort.loops_end (fun c : Candidate IP => c.priority.toNat) cs
  refine ⟨sort_descending cs, hbound, hend, ?_⟩
  refine InsertionSort.sort_of_sorted _ ((sort_descending cs).sorted.imp fun h => ?_)
  exact UInt32.le_iff_toNat_le.mp h

/-! ## The wire form -/

/-- What `String` and `ParseAddr` promise: an address is read back from its text. -/
structure Netip.Lawful (net : Netip IP) : Prop where
  parse_string : ∀ ip, net.parseAddr (net.string (some ip)) = some ip

/-- The candidate `c` is the endpoint that the wire entry `x` denotes. -/
structure Denotes (net : Netip IP) (x : PBCandidate) (c : Candidate IP) : Prop where
  kind : c.kind = x.kind
  addr : c.addr.isValid = true ∧ c.addr.addr = net.parseAddr x.ip
  port : c.addr.port.toNat = x.port.toNat
  priority : c.priority = x.priority

/-- Two wire entries that differ in the text of the IP at most. -/
structure SameEndpoint (net : Netip IP) (x y : PBCandidate) : Prop where
  kind : x.kind = y.kind
  ip : (net.parseAddr x.ip).isSome = true ∧ net.parseAddr x.ip = net.parseAddr y.ip
  port : x.port = y.port
  priority : x.priority = y.priority

def parses (net : Netip IP) (x : PBCandidate) : Bool := (net.parseAddr x.ip).isSome

/-- The IP can be read and the port has 16 bits. -/
def hasEndpoint (net : Netip IP) (x : PBCandidate) : Bool :=
  parses net x && decide (x.port.toNat < 65536)

/-- `FromPB` keeps the entries that denote an endpoint and drops the others, and on the wire again
what it keeps is a subsequence of what it was given. -/
structure Faithful (net : Netip IP) (w : List PBCandidate) : Prop where
  kept : List.Forall₂ (Denotes net) (w.filter (hasEndpoint net)) (fromPB net w)
  subsequence : ∃ v, v.Sublist w ∧ List.Forall₂ (SameEndpoint net) (toPB net (fromPB net w)) v

section Wire

variable {net : Netip IP} {w : List PBCandidate}

theorem fromPB_cons (x : PBCandidate) (w : List PBCandidate) :
    fromPB net (x :: w) =
      match net.parseAddr x.ip with
      | none => fromPB net w
      | some ip => ⟨x.kind, ⟨some ip, x.port.toUInt16⟩, x.priority⟩ :: fromPB net w := by
  unfold fromPB
  rw [List.filterMap_cons]
  cases net.parseAddr x.ip <;> rfl

theorem length_fromPB (w : List PBCandidate) :
    (fromPB net w).length = (w.filter (parses net)).length := by
  induction w with
  | nil => rfl
  | cons x w ih =>
    rw [fromPB_cons, List.filter_cons]
    cases hx : net.parseAddr x.ip with
    | none => simpa [parses, hx] using ih
    | some ip => simpa [parses, hx] using ih

/-- Every port fits. -/
def PortsFit (net : Netip IP) (w : List PBCandidate) : Prop :=
  ∀ x ∈ w, (net.parseAddr x.ip).isSome = true → x.port.toNat < 65536

theorem kept_of_portsFit (h : PortsFit net w) :
    List.Forall₂ (Denotes net) (w.filter (hasEndpoint net)) (fromPB net w) := by
  induction w with
  | nil => exact .nil
  | cons x w ih =>
    have ih := ih fun y hy => h y (List.mem_cons_of_mem x hy)
    rw [fromPB_cons, List.filter_cons]
    cases hx : net.parseAddr x.ip with
    | none => simpa [hasEndpoint, parses, hx] using ih
    | some ip =>
      have hport := h x List.mem_cons_self (by rw [hx]; rfl)
      rw [if_pos (by simp [hasEndpoint, parses, hx, hport])]
      refine .cons ⟨rfl, ⟨rfl, hx.symm⟩, ?_, rfl⟩ ih
      simp [Nat.mod_eq_of_lt hport]

/-- A candidate on the wire again is the entry it comes from, up to the text of the IP. -/
theorem Denotes.sameEndpoint (hnet : net.Lawful) {x : PBCandidate} {c : Candidate IP}
    (h : Denotes net x c) : SameEndpoint net (toPBOne net c) x := by
  obtain ⟨hkind, ⟨hvalid, haddr⟩, hport, hpriority⟩ := h
  obtain ⟨ip, hip⟩ := Option.isSome_iff_exists.mp hvalid
  have hparse : net.parseAddr (toPBOne net c).ip = some ip := by
    rw [toPBOne, hip, hnet.parse_string]
  refine ⟨hkind, ?_, ?_, hpriority⟩
  · rw [hparse, ← haddr, hip]
    exact ⟨rfl, rfl⟩
  · rw [← UInt32.toNat_inj, ← hport]
    exact UInt16.toNat_toUInt32 c.addr.port

theorem faithful_of_portsFit (hnet : net.Lawful) (h : PortsFit net w) : Faithful net w := by
  have hkept := kept_of_portsFit h
  refine ⟨hkept, w.filter (hasEndpoint net), List.filter_sublist, ?_⟩
  rw [toPB, List.forall₂_map_left_iff]
  exact (hkept.imp fun _ _ hd => hd.sameEndpoint hnet).flip

/-- As many are kept as can be read, so every entry that can be read has an endpoint. -/
theorem portsFit_of_kept
    (h : List.Forall₂ (Denotes net) (w.filter (hasEndpoint net)) (fromPB net w)) :
    PortsFit net w := by
  have hsub : (w.filter (hasEndpoint net)).Sublist (w.filter (parses net)) :=
    List.monotone_filter_right w fun x hx => (Bool.and_eq_true_iff.mp hx).1
  have heq := hsub.eq_of_length (h.length_eq.trans (length_fromPB w))
  intro x hx hparse
  have hmem : x ∈ w.filter (hasEndpoint net) := heq ▸ List.mem_filter.mpr ⟨hx, hparse⟩
  exact of_decide_eq_true (Bool.and_eq_true_iff.mp (List.mem_filter.mp hmem).2).2

theorem fromPB_toPB (hnet : net.Lawful) {cs : List (Candidate IP)}
    (h : ∀ c ∈ cs, c.addr.isValid = true) : fromPB net (toPB net cs) = cs := by
  induction cs with
  | nil => rfl
  | cons c cs ih =>
    obtain ⟨ip, hip⟩ := Option.isSome_iff_exists.mp (h c List.mem_cons_self)
    have hparse : net.parseAddr (toPBOne net c).ip = some ip := by
      rw [toPBOne, hip, hnet.parse_string]
    rw [toPB, List.map_cons, ← toPB, fromPB_cons, hparse]
    rw [ih fun c' hc' => h c' (List.mem_cons_of_mem c hc')]
    obtain ⟨kind, ⟨addr, port⟩, priority⟩ := c
    obtain rfl : addr = some ip := hip
    simp [toPBOne]

end Wire

/-- **`FromPB` invents no endpoint exactly if no port is cut**, and it inverts `toPB`. -/
theorem decode_faithful_iff (net : Netip IP) (hnet : net.Lawful) :
    (∀ w, Faithful net w ↔
      ∀ x ∈ w, (net.parseAddr x.ip).isSome = true → x.port.toNat < 65536) ∧
      ∀ cs : List (Candidate IP), (∀ c ∈ cs, c.addr.isValid = true) →
        fromPB net (toPB net cs) = cs :=
  ⟨fun _ => ⟨fun h => portsFit_of_kept h.kept, faithful_of_portsFit hnet⟩,
    fun _ h => fromPB_toPB hnet h⟩

theorem twoAddrs_lawful : twoAddrs.netip.Lawful := ⟨fun ip => by cases ip <;> rfl⟩

/-- An entry that cannot be read between two that can. -/
theorem decode_faithful_three :
    Faithful twoAddrs.netip [⟨"host", "10.0.0.2", 80, 30⟩, ⟨"host", "localhost", 70000, 40⟩,
      ⟨"srflx", "10.0.0.5", 65535, 20⟩] := by
  refine ((decode_faithful_iff twoAddrs.netip twoAddrs_lawful).1 _).mpr ?_
  intro x hx hparse
  simp only [List.mem_cons, List.not_mem_nil, or_false] at hx
  rcases hx with rfl | rfl | rfl
  · decide
  · cases hparse
  · decide

/-- **A port that is cut.** Port 70000 becomes port 4464, which no entry has. -/
theorem cut_port :
    fromPB twoAddrs.netip [⟨"host", "10.0.0.2", 70000, 30⟩] =
        [⟨"host", ⟨some true, 4464⟩, 30⟩] ∧
      ¬ Faithful twoAddrs.netip [⟨"host", "10.0.0.2", 70000, 30⟩] := by
  refine ⟨rfl, fun h => ?_⟩
  have hlt := portsFit_of_kept h.kept _ List.mem_cons_self rfl
  revert hlt
  decide

end OutRelayAgent.P2p
