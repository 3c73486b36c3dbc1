import OutRelayAgent.Lib.Bytes
import OutRelayAgent.Lib.Handout
import Mathlib.Algebra.Order.Ring.Nat
import Mathlib.Data.List.AList

/-!
# Virtual addresses for service names

`VIPAllocator` gives every service name an address of a prefix (`vip.go:19-112`). It keeps a map
each way and a cursor. A new name moves the cursor on to the next address of the prefix whose last
octet is neither 0 nor 255; the cursor moves on a failing call too, and leaves the address space as
the zero `netip.Addr` after 255.255.255.255.

The specification has no cursor and no maps: `Prefix.usable`, the usable addresses in ascending
order, is handed out to the names in the order of their first appearance (`Lib.handout`). `Zipped`
relates the allocator to the calls made so far, and the addresses `Prefix.left` at the cursor are
what the hand-out has left.

* `scan_spec`: the loop takes the first of the addresses that are left.
* `zipped_allocateAll`: the relation holds after every sequence of calls.
* `allocator_refines_handout`: what every operation returns then.
-/

namespace OutRelayAgent.Intercept

open Lib

/-! ## `netip` -/

/-- `netip.Addr`, without zones. -/
inductive Addr where
  | zero
  | v4 (x : BitVec 32)
  | v6 (x : BitVec 128)
deriving DecidableEq

namespace Addr

def toNat : Addr → ℕ
  | zero => 0
  | v4 x => x.toNat
  | v6 x => x.toNat

def bitLen : Addr → ℕ
  | zero => 0
  | v4 _ => 32
  | v6 _ => 128

/-- The zero `Addr` comes after the last address of a family. -/
def next : Addr → Addr
  | zero => zero
  | v4 x => if x = BitVec.allOnes 32 then zero else v4 (x + 1)
  | v6 x => if x = BitVec.allOnes 128 then zero else v6 (x + 1)

/-- How many addresses the family has from this one on. -/
def rank : Addr → ℕ
  | zero => 0
  | v4 x => 2 ^ 32 - x.toNat
  | v6 x => 2 ^ 128 - x.toNat

/-- The address with all bits after the first `bits` cleared. -/
def mask (bits : ℕ) : Addr → Addr
  | zero => zero
  | v4 x => v4 (x &&& (BitVec.allOnes 32 <<< (32 - bits)))
  | v6 x => v6 (x &&& (BitVec.allOnes 128 <<< (128 - bits)))

theorem toNat_add_one {w : ℕ} {x : BitVec w} (h : x ≠ BitVec.allOnes w) :
    (x + 1).toNat = x.toNat + 1 := by
  have hlt := x.isLt
  have hne : x.toNat ≠ 2 ^ w - 1 := fun hx => h (BitVec.eq_of_toNat_eq (by simpa using hx))
  have hone : (1 : BitVec w).toNat = 1 % 2 ^ w := BitVec.toNat_ofNat 1 w
  rw [BitVec.toNat_add, hone, Nat.add_mod_mod, Nat.mod_eq_of_lt (by omega)]

theorem rank_next {ip : Addr} (h : ip ≠ zero) : ip.next.rank < ip.rank := by
  cases ip with
  | zero => exact absurd rfl h
  | v4 x | v6 x =>
    have hlt := x.isLt
    by_cases hx : x = BitVec.allOnes _
    · rw [next, if_pos hx, rank, rank]
      omega
    · rw [next, if_neg hx, rank, rank, toNat_add_one hx]
      omega

end Addr

/-- `netip.Prefix`, as `netip.ParsePrefix` returns it. -/
structure Prefix where
  addr : Addr
  bits : ℕ
  valid : addr ≠ .zero ∧ bits ≤ addr.bitLen

namespace Prefix

def masked (p : Prefix) : Prefix where
  addr := p.addr.mask p.bits
  bits := p.bits
  valid := by
    obtain ⟨addr, bits, hne, hle⟩ := p
    cases addr with
    | zero => exact absurd rfl hne
    | v4 a | v6 a => exact ⟨nofun, hle⟩

def contains (p : Prefix) (ip : Addr) : Bool :=
  match p.addr, ip with
  | .v4 a, .v4 x => (x ^^^ a) >>> (32 - p.bits) == 0
  | .v6 a, .v6 x => (x ^^^ a) >>> (128 - p.bits) == 0
  | _, _ => false

theorem ne_zero_of_contains {p : Prefix} {ip : Addr} (h : p.contains ip = true) : ip ≠ .zero := by
  rintro rfl
  unfold contains at h
  split at h <;> simp_all

end Prefix

/-! ## The allocator -/

/-- `isUsable` asks for the last octet, which only an IPv4 address has. -/
def isUsable : Addr → Bool
  | .v4 x => x.toNat % 256 != 0 && x.toNat % 256 != 255
  | _ => false

structure VIPAllocator where
  pfx : Prefix
  nameToIP : AList (fun _ : Bytes => Addr)
  ipToName : AList (fun _ : Addr => Bytes)
  next : Addr

inductive NewError (ε : Type) where
  /-- `intercept: parse %q: %w` -/
  | parse (cidr : Bytes) (e : ε)
  /-- `intercept: only IPv4 VIP ranges supported` -/
  | notIPv4

inductive AllocateError where
  /-- `intercept: VIP pool exhausted` -/
  | exhausted
deriving DecidableEq

/-- `NewVIPAllocator`, given what `netip.ParsePrefix` makes of `cidr`. -/
def newVIPAllocator {ε : Type} (cidr : Bytes) (parsed : Except ε Prefix) :
    Except (NewError ε) VIPAllocator :=
  match parsed with
  | .error e => .error (.parse cidr e)
  | .ok pfx =>
    match pfx.addr with
    | .v4 _ => .ok ⟨pfx.masked, ∅, ∅, pfx.masked.addr.next⟩
    | _ => .error .notIPv4

/-- The loop of `Allocate`: the address found, and where the cursor is then. -/
def scan (pfx : Prefix) (taken : Addr → Bool) (next : Addr) : Option Addr × Addr :=
  if pfx.contains next then
    if !isUsable next then scan pfx taken next.next
    else if taken next then scan pfx taken next.next
    else (some next, next.next)
  else (none, next)
termination_by next.rank
decreasing_by
  all_goals exact Addr.rank_next (Prefix.ne_zero_of_contains ‹_›)

namespace VIPAllocator

def allocate (a : VIPAllocator) (name : Bytes) : Except AllocateError Addr × VIPAllocator :=
  match a.nameToIP.lookup name with
  | some ip => (.ok ip, a)
  | none =>
    match scan a.pfx (fun ip => (a.ipToName.lookup ip).isSome) a.next with
    | (some ip, next) =>
      (.ok ip, ⟨a.pfx, a.nameToIP.insert name ip, a.ipToName.insert ip name, next⟩)
    | (none, next) => (.error .exhausted, { a with next := next })

def lookupName (a : VIPAllocator) (name : Bytes) : Option Addr := a.nameToIP.lookup name

/-- The service of an address, or the empty string. -/
def lookup (a : VIPAllocator) (vip : Addr) : Bytes := (a.ipToName.lookup vip).getD []

def len (a : VIPAllocator) : ℕ := a.nameToIP.keys.length

/-- The allocator after a sequence of calls, failing ones included. -/
def allocateAll (a : VIPAllocator) (calls : List Bytes) : VIPAllocator :=
  calls.foldl (fun a name => (a.allocate name).2) a

end VIPAllocator

/-! ## The addresses of an IPv4 prefix -/

namespace Prefix

variable {p : Prefix} {a x : BitVec 32} {i j : ℕ} {v : Addr}

/-- One after the last address of the prefix. -/
def top (p : Prefix) : ℕ := p.masked.addr.toNat + 2 ^ (32 - p.bits)

/-- The usable addresses of an IPv4 prefix from `i` on. -/
def hosts (p : Prefix) (i : ℕ) : List Addr :=
  ((List.range' i (p.top - i)).map fun j => .v4 (BitVec.ofNat 32 j)).filter isUsable

/-- The usable addresses after the network address. -/
def usable (p : Prefix) : List Addr := p.hosts (p.masked.addr.toNat + 1)

/-- The usable addresses from the cursor on. -/
def left (p : Prefix) : Addr → List Addr
  | .v4 x => p.hosts x.toNat
  | _ => []

theorem and_allOnes_shiftLeft {w : ℕ} (a : BitVec w) (k : ℕ) :
    a &&& (BitVec.allOnes w <<< k) = (a >>> k) <<< k := by
  ext i hi
  by_cases hk : i < k
  · simp [hk]
  · have hki : k + (i - k) = i := by omega
    simp [hk, hki, BitVec.getLsbD_eq_getElem hi]

theorem xor_ushiftRight_eq_zero {w : ℕ} (a x : BitVec w) (k : ℕ) :
    (x ^^^ a) >>> k = 0 ↔ x.toNat / 2 ^ k = a.toNat / 2 ^ k := by
  have hzero : (0 : BitVec w) = 0#w := rfl
  rw [BitVec.ushiftRight_xor_distrib, hzero, BitVec.xor_eq_zero_iff, ← BitVec.toNat_inj,
    BitVec.toNat_ushiftRight, BitVec.toNat_ushiftRight, Nat.shiftRight_eq_div_pow,
    Nat.shiftRight_eq_div_pow]

theorem masked_addr (h : p.addr = .v4 a) :
    p.masked.addr = .v4 (a &&& (BitVec.allOnes 32 <<< (32 - p.bits))) :=
  congrArg (Addr.mask p.bits) h

theorem toNat_masked (h : p.addr = .v4 a) :
    p.masked.addr.toNat = a.toNat / 2 ^ (32 - p.bits) * 2 ^ (32 - p.bits) := by
  rw [masked_addr h, Addr.toNat, and_allOnes_shiftLeft, BitVec.toNat_shiftLeft,
    BitVec.toNat_ushiftRight, Nat.shiftRight_eq_div_pow, Nat.shiftLeft_eq, Nat.mod_eq_of_lt]
  exact Nat.lt_of_le_of_lt (Nat.div_mul_le_self _ _) a.isLt

theorem contains_v4 (h : p.addr = .v4 a) (x : BitVec 32) :
    p.contains (.v4 x) = ((x ^^^ a) >>> (32 - p.bits) == 0) := by
  unfold contains
  rw [h]

/-- A prefix is an interval. -/
theorem contains_masked_iff (h : p.addr = .v4 a) (x : BitVec 32) :
    p.masked.contains (.v4 x) = true ↔ p.masked.addr.toNat ≤ x.toNat ∧ x.toNat < p.top := by
  have hpos : 0 < 2 ^ (32 - p.bits) := Nat.two_pow_pos _
  have hnet := toNat_masked h
  rw [top, hnet, contains_v4 (masked_addr h), beq_iff_eq, xor_ushiftRight_eq_zero]
  rw [masked_addr h, Addr.toNat] at hnet
  rw [hnet, show p.masked.bits = p.bits from rfl, Nat.mul_div_cancel _ hpos, ← Nat.succ_mul,
    ← Nat.le_div_iff_mul_le hpos, ← Nat.div_lt_iff_lt_mul hpos]
  omega

theorem top_le (h : p.addr = .v4 a) : p.top ≤ 2 ^ 32 := by
  have hbits : p.bits ≤ 32 := by simpa [h, Addr.bitLen] using p.valid.2
  have hpow : 2 ^ 32 = 2 ^ p.bits * 2 ^ (32 - p.bits) := by
    rw [← Nat.pow_add, Nat.add_sub_cancel' hbits]
  have hlt : a.toNat / 2 ^ (32 - p.bits) < 2 ^ p.bits :=
    Nat.div_lt_of_lt_mul (by rw [Nat.mul_comm, ← hpow]; exact a.isLt)
  rw [top, toNat_masked h, ← Nat.succ_mul, hpow]
  exact Nat.mul_le_mul_right _ hlt

theorem hosts_of_le (h : p.top ≤ i) : p.hosts i = [] := by
  rw [hosts, Nat.sub_eq_zero_of_le h]
  rfl

theorem hosts_of_lt (h : i < p.top) :
    p.hosts i =
      if isUsable (.v4 (BitVec.ofNat 32 i)) then .v4 (BitVec.ofNat 32 i) :: p.hosts (i + 1)
      else p.hosts (i + 1) := by
  have hlen : p.top - i = p.top - (i + 1) + 1 := by omega
  rw [hosts, hlen, List.range'_succ, List.map_cons, List.filter_cons, hosts]

theorem mem_hosts (h : p.addr = .v4 a) :
    v ∈ p.hosts i ↔ ∃ x, v = .v4 x ∧ i ≤ x.toNat ∧ x.toNat < p.top ∧ isUsable v = true := by
  have htop := top_le h
  rw [hosts, List.mem_filter, List.mem_map]
  constructor
  · rintro ⟨⟨j, hj, rfl⟩, hv⟩
    rw [List.mem_range'_1] at hj
    refine ⟨_, rfl, ?_, ?_, hv⟩ <;> rw [BitVec.toNat_ofNat, Nat.mod_eq_of_lt] <;> omega
  · rintro ⟨x, rfl, hi, hx, hv⟩
    refine ⟨⟨x.toNat, List.mem_range'_1.mpr (by omega), ?_⟩, hv⟩
    rw [BitVec.ofNat_toNat, BitVec.setWidth_eq]

/-- The addresses are those of the prefix after the network address with a usable last octet. -/
theorem mem_usable (h : p.addr = .v4 a) :
    v ∈ p.usable ↔
      p.masked.contains v = true ∧ p.masked.addr.toNat < v.toNat ∧ isUsable v = true := by
  rw [usable, mem_hosts h]
  constructor
  · rintro ⟨x, rfl, hlo, hhi, hv⟩
    exact ⟨(contains_masked_iff h x).mpr ⟨Nat.le_of_succ_le hlo, hhi⟩, hlo, hv⟩
  · rintro ⟨hc, hlo, hv⟩
    cases v with
    | zero | v6 x => cases hv
    | v4 x => exact ⟨x, rfl, hlo, ((contains_masked_iff h x).mp hc).2, hv⟩

theorem hosts_ascending (h : p.addr = .v4 a) (i : ℕ) :
    (p.hosts i).Pairwise fun u v => u.toNat < v.toNat := by
  have htop := top_le h
  refine List.Pairwise.filter _ (List.pairwise_map.mpr ?_)
  refine (List.pairwise_lt_range' 1).imp_of_mem fun {j k} hj hk hlt => ?_
  rw [List.mem_range'_1] at hj hk
  simp only [Addr.toNat, BitVec.toNat_ofNat]
  rw [Nat.mod_eq_of_lt (by omega), Nat.mod_eq_of_lt (by omega)]
  exact hlt

theorem nodup_usable (h : p.addr = .v4 a) : p.usable.Nodup :=
  (hosts_ascending h _).imp fun {u v} hlt (heq : u = v) => Nat.lt_irrefl v.toNat (heq ▸ hlt)

/-! ## The loop -/

/-- The cursor has not fallen behind the network address. -/
def Above (p : Prefix) (next : Addr) : Prop := ∀ x, next = .v4 x → p.masked.addr.toNat ≤ x.toNat

/-- One step of the cursor. -/
theorem left_next (h : p.addr = .v4 a) (x : BitVec 32) :
    p.left (Addr.v4 x).next = p.hosts (x.toNat + 1) := by
  by_cases hx : x = BitVec.allOnes 32
  · have htop := top_le h
    have hmax : x.toNat = 2 ^ 32 - 1 := by rw [hx, BitVec.toNat_allOnes]
    rw [Addr.next, if_pos hx, hosts_of_le (by omega), left]
    exact nofun
  · rw [Addr.next, if_neg hx, left, Addr.toNat_add_one hx]

theorem above_next (habove : p.Above (.v4 x)) : p.Above (Addr.v4 x).next := by
  by_cases hx : x = BitVec.allOnes 32
  · rw [Addr.next, if_pos hx]
    exact nofun
  · rw [Addr.next, if_neg hx]
    intro y hy
    cases hy
    rw [Addr.toNat_add_one hx]
    exact Nat.le_succ_of_le (habove x rfl)

theorem left_of_contains (h : p.addr = .v4 a) {next : Addr} (habove : p.Above next)
    (hc : p.masked.contains next = true) :
    (p.left next = if isUsable next then next :: p.left next.next else p.left next.next) ∧
      p.Above next.next := by
  obtain ⟨x, rfl⟩ : ∃ x, next = .v4 x := by
    unfold contains at hc
    rw [masked_addr h] at hc
    cases next with
    | zero | v6 x => cases hc
    | v4 x => exact ⟨x, rfl⟩
  rw [left_next h, left, hosts_of_lt ((contains_masked_iff h x).mp hc).2, BitVec.ofNat_toNat,
    BitVec.setWidth_eq]
  exact ⟨rfl, above_next habove⟩

/-- Nothing is left behind the prefix. -/
theorem left_of_not_contains (h : p.addr = .v4 a) {next : Addr} (habove : p.Above next)
    (hc : ¬ p.masked.contains next = true) : p.left next = [] := by
  cases next with
  | zero | v6 x => rfl
  | v4 x =>
    rw [contains_masked_iff h] at hc
    have hlo := habove x rfl
    exact hosts_of_le (by omega)

end Prefix

open Prefix

variable {p : Prefix} {net : BitVec 32}

/-- The loop takes the first of the addresses that are left, if none of them is taken. -/
theorem scan_spec (h : p.addr = .v4 net) (taken : Addr → Bool) (next : Addr)
    (habove : p.Above next) (hfree : ∀ v ∈ p.left next, taken v = false) :
    (scan p.masked taken next).1 = (p.left next).head? ∧
      p.left (scan p.masked taken next).2 = (p.left next).tail ∧
      p.Above (scan p.masked taken next).2 := by
  induction next using scan.induct p.masked taken with
  | case1 next hc husable ih =>
    obtain ⟨hleft, hup⟩ := left_of_contains h habove hc
    rw [if_neg (by simpa using husable)] at hleft
    rw [scan, if_pos hc, if_pos husable, hleft]
    exact ih hup (hleft ▸ hfree)
  | case2 next hc husable htaken ih =>
    -- The cursor stands on an address that is left, and none of those is taken.
    obtain ⟨hleft, -⟩ := left_of_contains h habove hc
    rw [if_pos (by simpa using husable)] at hleft
    rw [hfree next (hleft ▸ List.mem_cons_self)] at htaken
    cases htaken
  | case3 next hc husable htaken =>
    obtain ⟨hleft, hup⟩ := left_of_contains h habove hc
    rw [if_pos (by simpa using husable)] at hleft
    rw [scan, if_pos hc, if_neg husable, if_neg htaken, hleft]
    exact ⟨rfl, rfl, hup⟩
  | case4 next hc =>
    rw [scan, if_neg hc, left_of_not_contains h habove hc]
    exact ⟨rfl, rfl, habove⟩

/-! ## The allocator and the hand-out -/

/-- The two maps hold what has been handed out, and the cursor stands before what is left. -/
structure Zipped (p : Prefix) (calls : List Bytes) (a : VIPAllocator) : Prop where
  pfx : a.pfx = p.masked
  names : a.nameToIP.entries = (handout p.usable calls).reverse.map fun t => ⟨t.1, t.2⟩
  ips : a.ipToName.entries = (handout p.usable calls).reverse.map fun t => ⟨t.2, t.1⟩
  above : p.Above a.next
  left : p.left a.next = p.usable.drop (distinct calls).length

section Zipped

variable {calls : List Bytes} {a : VIPAllocator} {n : Bytes} {v : Addr}

theorem Zipped.lookupName_iff (hz : Zipped p calls a) :
    a.lookupName n = some v ↔ (n, v) ∈ handout p.usable calls := by
  rw [VIPAllocator.lookupName, ← Option.mem_def, AList.mem_lookup_iff, hz.names]
  simp

theorem Zipped.ipToName_iff (hz : Zipped p calls a) :
    a.ipToName.lookup v = some n ↔ (n, v) ∈ handout p.usable calls := by
  rw [← Option.mem_def, AList.mem_lookup_iff, hz.ips]
  simp

theorem Zipped.len_eq (hz : Zipped p calls a) : a.len = (handout p.usable calls).length := by
  rw [VIPAllocator.len, AList.keys, List.keys, List.length_map, hz.names, List.length_map,
    List.length_reverse]

theorem zipped_new (h : p.addr = .v4 net) :
    Zipped p [] ⟨p.masked, ∅, ∅, p.masked.addr.next⟩ := by
  have hnet := masked_addr h
  refine ⟨rfl, rfl, rfl, ?_, ?_⟩
  · rw [hnet]
    exact above_next fun x hx => by rw [hnet, hx]; exact Nat.le_refl _
  · rw [usable, hnet, left_next h]
    rfl

/-- What is left is not taken. -/
theorem Zipped.free (h : p.addr = .v4 net) (hz : Zipped p calls a) :
    ∀ v ∈ p.left a.next, (a.ipToName.lookup v).isSome = false := by
  intro v hv
  rw [hz.left] at hv
  rw [Option.isSome_eq_false_iff, Option.isNone_iff_eq_none, Option.eq_none_iff_forall_ne_some]
  intro n hn
  exact List.disjoint_take_drop (nodup_usable h) (Nat.le_refl _)
    (mem_take_of_mem_handout (hz.ipToName_iff.mp hn)) hv

/-- A name that has an address keeps it, and nothing changes. -/
theorem Zipped.allocate_old (hz : Zipped p calls a) (hv : (n, v) ∈ handout p.usable calls) :
    a.allocate n = (.ok v, a) := by
  unfold VIPAllocator.allocate
  rw [show a.nameToIP.lookup n = some v from hz.lookupName_iff.mpr hv]

/-- A name that has none moves the cursor. -/
theorem Zipped.allocate_new (h : p.addr = .v4 net) (hz : Zipped p calls a)
    (hno : ∀ v, (n, v) ∉ handout p.usable calls) :
    ∃ next, p.left next = p.usable.drop ((distinct calls).length + 1) ∧ p.Above next ∧
      a.allocate n =
        match p.usable[turn calls n]? with
        | some ip => (.ok ip, ⟨a.pfx, a.nameToIP.insert n ip, a.ipToName.insert ip n, next⟩)
        | none => (.error .exhausted, { a with next := next }) := by
  have hlookup : a.nameToIP.lookup n = none :=
    Option.eq_none_iff_forall_ne_some.mpr fun v hv => hno v (hz.lookupName_iff.mp hv)
  obtain ⟨hhead, htail, habove⟩ := scan_spec h _ a.next hz.above (hz.free h)
  rw [hz.left, List.head?_drop, ← getElem?_turn_of_forall_notMem hno] at hhead
  rw [hz.left, List.tail_drop] at htail
  refine ⟨_, htail, habove, ?_⟩
  unfold VIPAllocator.allocate
  rw [hlookup, hz.pfx, ← hhead]
  dsimp only
  split
  · rename_i heq
    rw [heq]
  · rename_i heq
    rw [heq]

theorem zipped_allocate (h : p.addr = .v4 net) (hz : Zipped p calls a) (n : Bytes) :
    Zipped p (calls ++ [n]) (a.allocate n).2 := by
  by_cases hold : ∃ v, (n, v) ∈ handout p.usable calls
  · obtain ⟨v, hv⟩ := hold
    have hn := (mem_handout_iff.mp hv).1
    rw [hz.allocate_old hv]
    refine ⟨hz.pfx, ?_, ?_, hz.above, ?_⟩
    · rw [handout_snoc_of_mem hn, hz.names]
    · rw [handout_snoc_of_mem hn, hz.ips]
    · rw [distinct_snoc_of_mem hn, hz.left]
  · have hno : ∀ v, (n, v) ∉ handout p.usable calls := fun v hv => hold ⟨v, hv⟩
    obtain ⟨next, hleft, habove, heq⟩ := hz.allocate_new h hno
    rw [heq]
    cases hU : p.usable[turn calls n]? with
    | none =>
      -- All addresses are gone, and the name gets none now or later.
      have hgone : p.usable.length ≤ (distinct calls).length :=
        Nat.le_trans (List.getElem?_eq_none_iff.mp hU) (turn_le calls n)
      have hsame : handout p.usable (calls ++ [n]) = handout p.usable calls := by
        by_cases hn : n ∈ calls
        · exact handout_snoc_of_mem hn
        · rw [handout_snoc_of_notMem hn, hU]
          exact List.append_nil _
      obtain ⟨rest, hrest⟩ := exists_distinct_append calls [n]
      refine ⟨hz.pfx, ?_, ?_, habove, ?_⟩
      · rw [hsame, hz.names]
      · rw [hsame, hz.ips]
      · rw [hleft, hrest, List.length_append, List.drop_eq_nil_of_le (by omega),
          List.drop_eq_nil_of_le (by omega)]
    | some ip =>
      have hn : n ∉ calls := fun hn => hno ip (mem_handout_iff.mpr ⟨hn, hU⟩)
      have hpairs : handout p.usable (calls ++ [n]) = handout p.usable calls ++ [(n, ip)] := by
        rw [handout_snoc_of_notMem hn, hU]
        rfl
      have hname : n ∉ a.nameToIP := by
        rw [← AList.lookup_eq_none, Option.eq_none_iff_forall_ne_some]
        exact fun v hv => hno v (hz.lookupName_iff.mp hv)
      have hip : ip ∉ a.ipToName := by
        rw [← AList.lookup_eq_none, ← Option.isNone_iff_eq_none, ← Option.isSome_eq_false_iff]
        refine hz.free h ip ?_
        rw [getElem?_turn_of_forall_notMem hno, ← List.head?_drop] at hU
        rw [hz.left]
        exact List.mem_of_head? hU
      refine ⟨hz.pfx, ?_, ?_, habove, ?_⟩
      · rw [hpairs, List.reverse_append, AList.entries_insert_of_notMem hname, hz.names]
        rfl
      · rw [hpairs, List.reverse_append, AList.entries_insert_of_notMem hip, hz.ips]
        rfl
      · rw [hleft, distinct_snoc_of_notMem hn, List.length_append, List.length_singleton]

theorem zipped_allocateAll (h : p.addr = .v4 net) (hz : Zipped p calls a) (more : List Bytes) :
    Zipped p (calls ++ more) (a.allocateAll more) := by
  induction more generalizing calls a with
  | nil =>
    rw [List.append_nil]
    exact hz
  | cons n more ih =>
    rw [List.append_cons]
    exact ih (zipped_allocate h hz n)

theorem Zipped.result (h : p.addr = .v4 net) (hz : Zipped p calls a) (n : Bytes) :
    (a.allocate n).1 = p.usable[turn calls n]?.elim (.error .exhausted) .ok := by
  by_cases hold : ∃ v, (n, v) ∈ handout p.usable calls
  · obtain ⟨v, hv⟩ := hold
    rw [hz.allocate_old hv, (mem_handout_iff.mp hv).2]
    rfl
  · obtain ⟨next, -, -, heq⟩ := hz.allocate_new h fun v hv => hold ⟨v, hv⟩
    rw [heq]
    cases p.usable[turn calls n]? <;> rfl

theorem Zipped.fails_iff (h : p.addr = .v4 net) (hz : Zipped p calls a) (n : Bytes) :
    (a.allocate n).1 = .error .exhausted ↔
      (∀ v, (n, v) ∉ handout p.usable calls) ∧
        (handout p.usable calls).length = p.usable.length := by
  rw [← getElem?_turn_eq_none, hz.result h n]
  cases p.usable[turn calls n]? <;> simp

theorem Zipped.fails_unchanged (h : p.addr = .v4 net) (hz : Zipped p calls a)
    (hfail : (a.allocate n).1 = .error .exhausted) :
    (a.allocate n).2.nameToIP = a.nameToIP ∧ (a.allocate n).2.ipToName = a.ipToName := by
  have hnone := getElem?_turn_eq_none.mpr ((hz.fails_iff h n).mp hfail)
  obtain ⟨next, -, -, heq⟩ := hz.allocate_new h ((hz.fails_iff h n).mp hfail).1
  rw [heq, hnone]
  exact ⟨rfl, rfl⟩

theorem Zipped.lookup_of_mem (hz : Zipped p calls a) (hv : (n, v) ∈ handout p.usable calls) :
    a.lookup v = n := by
  rw [VIPAllocator.lookup, hz.ipToName_iff.mpr hv]
  rfl

theorem Zipped.lookup_of_forall_notMem (hz : Zipped p calls a)
    (hv : ∀ n, (n, v) ∉ handout p.usable calls) : a.lookup v = [] := by
  have hnone : a.ipToName.lookup v = none :=
    Option.eq_none_iff_forall_ne_some.mpr fun n hn => hv n (hz.ipToName_iff.mp hn)
  rw [VIPAllocator.lookup, hnone]
  rfl

end Zipped

/-- `NewVIPAllocator` accepts the IPv4 prefixes. -/
theorem newVIPAllocator_ok {ε : Type} {cidr : Bytes} {a₀ : VIPAllocator}
    (h : newVIPAllocator cidr (.ok p : Except ε Prefix) = .ok a₀) :
    ∃ net, p.addr = .v4 net ∧ Zipped p [] a₀ := by
  unfold newVIPAllocator at h
  dsimp only at h
  split at h
  · rename_i net hp
    cases h
    exact ⟨net, hp, zipped_new hp⟩
  · cases h

/-- What the operations of the allocator return after `calls`, with the addresses `U`. -/
structure Serves (U : List Addr) (calls : List Bytes) (a : VIPAllocator) : Prop where
  result : ∀ n, (a.allocate n).1 = U[turn calls n]?.elim (.error .exhausted) .ok
  old : ∀ n v, (n, v) ∈ handout U calls → a.allocate n = (.ok v, a)
  fails_iff : ∀ n, (a.allocate n).1 = .error .exhausted ↔
    (∀ v, (n, v) ∉ handout U calls) ∧ (handout U calls).length = U.length
  fails_unchanged : ∀ n, (a.allocate n).1 = .error .exhausted →
    (a.allocate n).2.nameToIP = a.nameToIP ∧ (a.allocate n).2.ipToName = a.ipToName
  lookupName : ∀ n v, a.lookupName n = some v ↔ (n, v) ∈ handout U calls
  ipToName : ∀ n v, a.ipToName.lookup v = some n ↔ (n, v) ∈ handout U calls
  known : ∀ n v, (n, v) ∈ handout U calls → a.lookup v = n
  unknown : ∀ v, (∀ n, (n, v) ∉ handout U calls) → a.lookup v = []
  len : a.len = (handout U calls).length

theorem Zipped.serves (h : p.addr = .v4 net) {calls : List Bytes} {a : VIPAllocator}
    (hz : Zipped p calls a) : Serves p.usable calls a where
  result := hz.result h
  old _ _ := hz.allocate_old
  fails_iff := hz.fails_iff h
  fails_unchanged _ := hz.fails_unchanged h
  lookupName _ _ := hz.lookupName_iff
  ipToName _ _ := hz.ipToName_iff
  known _ _ := hz.lookup_of_mem
  unknown _ := hz.lookup_of_forall_notMem
  len := hz.len_eq

/-- For every prefix that `NewVIPAllocator` accepts and after every sequence of calls, the allocator
is the usable addresses, in ascending order, zipped with the distinct names. -/
theorem allocator_refines_handout {ε : Type} (cidr : Bytes) (p : Prefix) (a₀ : VIPAllocator)
    (hnew : newVIPAllocator cidr (.ok p : Except ε Prefix) = .ok a₀) :
    (p.usable.Pairwise fun u v => u.toNat < v.toNat) ∧
      (∀ v, v ∈ p.usable ↔
        p.masked.contains v = true ∧ p.masked.addr.toNat < v.toNat ∧ isUsable v = true) ∧
      (∀ calls, Serves p.usable calls (a₀.allocateAll calls)) ∧
      ∀ calls n more,
        ((a₀.allocateAll (calls ++ n :: more)).allocate n).1 =
          ((a₀.allocateAll calls).allocate n).1 := by
  obtain ⟨net, hp, hz⟩ := newVIPAllocator_ok hnew
  have hrun : ∀ calls, Zipped p calls (a₀.allocateAll calls) := fun calls =>
    zipped_allocateAll hp hz calls
  refine ⟨hosts_ascending hp _, fun v => mem_usable hp, fun calls => (hrun calls).serves hp, ?_⟩
  intro calls n more
  have hturn : turn (calls ++ n :: more) n = turn calls n := by
    rw [List.append_cons, turn_append (List.mem_append_right _ List.mem_cons_self),
      turn_of_mem (List.mem_append_right _ List.mem_cons_self), turn]
  rw [(hrun _).result hp n, (hrun _).result hp n, hturn]

/-- 10.0.0.253/29 -/
def slash29 : Prefix := ⟨.v4 0x0A0000FD, 29, nofun, by decide⟩

theorem slash29_serves :
    ∃ a₀, newVIPAllocator [] (.ok slash29 : Except Unit Prefix) = .ok a₀ ∧
      ((a₀.allocateAll [[1], [2], [1]]).allocate [3]).1 = .ok (.v4 0x0A0000FB) := by
  refine ⟨_, rfl, ?_⟩
  have h := (allocator_refines_handout [] slash29 _ (rfl : newVIPAllocator []
    (.ok slash29 : Except Unit Prefix) = _)).2.2.1 [[1], [2], [1]]
  rw [h.result]
  decide

end OutRelayAgent.Intercept
