import OutRelayAgent.Intercept.Vip
import OutRelayAgent.Lib.Machine

/-!
# Transparent interception

In tproxy mode `startInterceptor` gives every consumed service an address (`main.go:341-362`), the
DNS server answers queries for the services with these addresses (`dns.go:115-191`), and an
intercepted connection is for the service its destination belongs to (`tproxy_linux.go:72-118`).

`Allocate` takes a name as it is. `DNSServer.lookup` lowers the name of a query and removes one
trailing dot and the suffix before it asks for the address. So the services that can be resolved are
those that are in lower case.

The case table beyond ASCII (`lowerRune`) and `strings.TrimSpace` are parameters.

* `lookup_eq_some_iff`: which service a query asks for.
* `never_crosswired`: an address that was the answer to a query belongs to the service of the query
  ever after.
* `consumed_resolvable_iff`: which consumed services can be resolved in every spelling.
* `unresolvable_upper_case`: a service with an upper case letter in its name.
* `documented_names_iff`: when a query is answered as the doc of `DNSServer` says, which names the
  bare service name next to the one with the suffix. `lookup` takes the suffix for required, so a
  bare name is not recognized (`bare_name_refused`).
-/

namespace OutRelayAgent.Intercept

open Lib Lib.Bytes

/-- `.` -/
def dot : UInt8 := 46

structure DNSServer where
  listenAddr : Bytes
  /-- Begins with a dot, or is empty. -/
  suffix : Bytes

inductive DNSError where
  /-- `intercept: nil VIPAllocator` -/
  | nilAllocator

inductive QType where
  | a
  | aaaa
  | other

inductive RCode where
  | success
  | nameError
  | notImplemented

structure Reply where
  rcode : RCode
  answers : List Addr

section Server

variable (trimSpace lowerRune : Bytes → Bytes)

/-- What `NewDNSServer` makes of the suffix. -/
def normalise (suffix : Bytes) : Bytes :=
  let suffix := toLower lowerRune (trimSpace suffix)
  if suffix ≠ [] ∧ ¬ [dot].isPrefixOf suffix then dot :: suffix else suffix

def newDNSServer (listenAddr suffix : Bytes) (alloc : Option VIPAllocator) :
    Except DNSError DNSServer :=
  match alloc with
  | none => .error .nilAllocator
  | some _ => .ok ⟨listenAddr, normalise trimSpace lowerRune suffix⟩

/-- `DNSServer.lookup`, with the allocator as it is at the time of the query. -/
def DNSServer.lookup (s : DNSServer) (alloc : VIPAllocator) (qname : Bytes) : Option Addr :=
  let name := toLower lowerRune (trimSuffix qname [dot])
  if s.suffix ≠ [] ∧ ¬ s.suffix.isSuffixOf name then none
  else
    let name := if s.suffix ≠ [] then trimSuffix name s.suffix else name
    if name = [] then none else alloc.lookupName name

/-- The answer of `DNSServer.respond` to a question. -/
def DNSServer.respond (s : DNSServer) (alloc : VIPAllocator) (qtype : QType) (qname : Bytes) :
    Reply :=
  match qtype with
  | .a =>
    match s.lookup lowerRune alloc qname with
    | some vip => ⟨.success, [vip]⟩
    | none => ⟨.nameError, []⟩
  | .aaaa => ⟨.nameError, []⟩
  | .other => ⟨.notImplemented, []⟩

/-- `acceptLoop`: the target service of a connection to `dst`, which is closed if there is none. -/
def accept (alloc : VIPAllocator) (dst : Addr) : Option Bytes :=
  let svc := alloc.lookup dst
  if svc = [] then none else some svc

end Server

/-! ## Which service a query asks for -/

section Lookup

variable {trimSpace lowerRune : Bytes → Bytes} {s : DNSServer} {alloc : VIPAllocator}
  {q svc : Bytes} {v : Addr}

theorem lookup_eq_some_iff :
    s.lookup lowerRune alloc q = some v ↔
      ∃ svc, svc ≠ [] ∧ toLower lowerRune (trimSuffix q [dot]) = svc ++ s.suffix ∧
        alloc.lookupName svc = some v := by
  unfold DNSServer.lookup
  dsimp only
  generalize toLower lowerRune (trimSuffix q [dot]) = name
  by_cases hs : s.suffix = []
  · rw [if_neg fun h => h.1 hs, if_neg (not_not_intro hs), Option.ite_none_left_eq_some, hs]
    simp only [List.append_nil]
    constructor
    · rintro ⟨hne, hv⟩
      exact ⟨name, hne, rfl, hv⟩
    · rintro ⟨_, hne, rfl, hv⟩
      exact ⟨hne, hv⟩
  · rw [if_pos hs, Option.ite_none_left_eq_some, Option.ite_none_left_eq_some]
    simp only [hs, not_false_eq_true, true_and, not_not, List.isSuffixOf_iff_suffix, ne_eq]
    constructor
    · rintro ⟨⟨svc, rfl⟩, hne, hv⟩
      rw [trimSuffix_append] at hne hv
      exact ⟨svc, hne, rfl, hv⟩
    · rintro ⟨svc, hne, rfl, hv⟩
      rw [trimSuffix_append]
      exact ⟨⟨svc, rfl⟩, hne, hv⟩

end Lookup

/-! ## Over time -/

/-- The agent with its interceptor: the allocator, and what has happened so far. -/
structure World where
  alloc : VIPAllocator
  /-- The names `Allocate` was called with. -/
  calls : List Bytes
  /-- The queries that were answered with an address. -/
  answers : List (Bytes × Addr)
  /-- The connections that were accepted, with their target services. -/
  accepted : List (Addr × Bytes)

inductive Action where
  | allocate (name : Bytes)
  | query (qtype : QType) (qname : Bytes)
  | connect (dst : Addr)

/-- The allocator `a₀` and the server `s`, in any order of their calls. -/
def interceptor (lowerRune : Bytes → Bytes) (s : DNSServer) (a₀ : VIPAllocator) :
    Machine World Action where
  init := ⟨a₀, [], [], []⟩
  step w
    | .allocate name => some { w with
        alloc := (w.alloc.allocate name).2
        calls := w.calls ++ [name] }
    | .query qtype qname => some { w with
        answers := w.answers ++
          (s.respond lowerRune w.alloc qtype qname).answers.map fun v => (qname, v) }
    | .connect dst => some { w with
        accepted := w.accepted ++ (accept w.alloc dst).toList.map fun svc => (dst, svc) }

section Time

variable {lowerRune : Bytes → Bytes} {s : DNSServer} {a₀ : VIPAllocator} {p : Prefix}
  {net : BitVec 32} {w w' : World} {q svc : Bytes} {v : Addr}

theorem mem_respond {qtype : QType} {alloc : VIPAllocator}
    (h : v ∈ (s.respond lowerRune alloc qtype q).answers) :
    s.lookup lowerRune alloc q = some v := by
  unfold DNSServer.respond at h
  split at h
  · split at h
    · rename_i hlookup
      rw [hlookup, List.mem_singleton.mp h]
    · cases h
  · cases h
  · cases h

theorem accept_eq_some {alloc : VIPAllocator} (h : accept alloc v = some svc) :
    svc ≠ [] ∧ alloc.lookup v = svc := by
  obtain ⟨hne, heq⟩ := Option.ite_none_left_eq_some.mp h
  cases heq
  exact ⟨hne, rfl⟩

/-- A service has the address, and the query asks for the service. -/
def Answered (lowerRune : Bytes → Bytes) (s : DNSServer) (p : Prefix) (w : World) (q : Bytes)
    (v : Addr) : Prop :=
  ∃ svc, svc ≠ [] ∧ toLower lowerRune (trimSuffix q [dot]) = svc ++ s.suffix ∧
    (svc, v) ∈ handout p.usable w.calls

/-- The allocator is the hand-out of the calls, and every answer and every accepted connection is by
a pair of it. -/
structure Wired (lowerRune : Bytes → Bytes) (s : DNSServer) (p : Prefix) (w : World) : Prop where
  zipped : Zipped p w.calls w.alloc
  answers : ∀ q v, (q, v) ∈ w.answers → Answered lowerRune s p w q v
  accepted : ∀ v svc, (v, svc) ∈ w.accepted → (svc, v) ∈ handout p.usable w.calls

theorem Wired.lookup (hw : Wired lowerRune s p w) (h : s.lookup lowerRune w.alloc q = some v) :
    Answered lowerRune s p w q v := by
  obtain ⟨svc, hne, hq, hv⟩ := lookup_eq_some_iff.mp h
  exact ⟨svc, hne, hq, hw.zipped.lookupName_iff.mp hv⟩

/-- A connection is accepted only for a service that has its address. -/
theorem Zipped.mem_of_lookup {calls : List Bytes} {a : VIPAllocator} (hz : Zipped p calls a)
    (hne : svc ≠ []) (h : a.lookup v = svc) : (svc, v) ∈ handout p.usable calls := by
  by_cases hv : ∃ n, (n, v) ∈ handout p.usable calls
  · obtain ⟨n, hn⟩ := hv
    rw [← h, hz.lookup_of_mem hn]
    exact hn
  · rw [hz.lookup_of_forall_notMem fun n hn => hv ⟨n, hn⟩] at h
    exact absurd h.symm hne

/-- The addresses that have been handed out stay. -/
theorem step_handout {act : Action} (hst : (interceptor lowerRune s a₀).step w act = some w')
    (h : (svc, v) ∈ handout p.usable w.calls) : (svc, v) ∈ handout p.usable w'.calls := by
  cases act with
  | allocate name =>
    cases hst
    exact mem_handout_append h [name]
  | query | connect =>
    cases hst
    exact h

theorem wired_step (hp : p.addr = .v4 net) {act : Action} (hw : Wired lowerRune s p w)
    (hst : (interceptor lowerRune s a₀).step w act = some w') : Wired lowerRune s p w' := by
  have hanswers : ∀ q v, (q, v) ∈ w.answers → Answered lowerRune s p w' q v := by
    intro q v hq
    obtain ⟨svc, hne, hname, hv⟩ := hw.answers q v hq
    exact ⟨svc, hne, hname, step_handout hst hv⟩
  have haccepted : ∀ v svc, (v, svc) ∈ w.accepted → (svc, v) ∈ handout p.usable w'.calls :=
    fun v svc h => step_handout hst (hw.accepted v svc h)
  cases act with
  | allocate name =>
    cases hst
    exact ⟨zipped_allocate hp hw.zipped name, hanswers, haccepted⟩
  | query qtype qname =>
    cases hst
    refine ⟨hw.zipped, fun q v hq => ?_, haccepted⟩
    rcases List.mem_append.mp hq with hq | hq
    · exact hanswers q v hq
    · obtain ⟨v, hv, ⟨⟩⟩ := List.mem_map.mp hq
      exact hw.lookup (mem_respond hv)
  | connect dst =>
    cases hst
    refine ⟨hw.zipped, hanswers, fun v svc hsvc => ?_⟩
    rcases List.mem_append.mp hsvc with hsvc | hsvc
    · exact haccepted v svc hsvc
    · obtain ⟨svc, hv, ⟨⟩⟩ := List.mem_map.mp hsvc
      obtain ⟨hne, hlookup⟩ := accept_eq_some (Option.mem_toList.mp hv)
      exact hw.zipped.mem_of_lookup hne hlookup

theorem reach_wired (hp : p.addr = .v4 net) (hz : Zipped p [] a₀)
    (h : (interceptor lowerRune s a₀).Reach w) : Wired lowerRune s p w :=
  Machine.Reach.invariant (I := Wired lowerRune s p)
    ⟨hz, fun _ _ h => (by cases h), fun _ _ h => (by cases h)⟩
    (fun _ _ _ hw hst => wired_step hp hw hst) h

/-- A connection to an address that was the answer to a query is for the service of the query. -/
theorem accepted_of_answered (hp : p.addr = .v4 net) (hz : Zipped p [] a₀)
    (h : (interceptor lowerRune s a₀).Reach w) (hq : (q, v) ∈ w.answers)
    (hsvc : (v, svc) ∈ w.accepted) :
    toLower lowerRune (trimSuffix q [dot]) = svc ++ s.suffix := by
  have hw := reach_wired hp hz h
  obtain ⟨svc', -, hname, hv⟩ := hw.answers q v hq
  have hsame : svc' = svc := by
    rw [← hw.zipped.lookup_of_mem hv, hw.zipped.lookup_of_mem (hw.accepted v svc hsvc)]
  rw [hname, hsame]

end Time

/-- If a query is answered with an address, then the address belongs to the service the query asks
for, now and at every later time, and this service was allocated. Only `Allocate` changes the
allocator. -/
theorem never_crosswired {ε : Type} (trimSpace lowerRune : Bytes → Bytes) (cidr : Bytes)
    (p : Prefix) (a₀ : VIPAllocator) (listenAddr suffix : Bytes) (s : DNSServer)
    (hnew : newVIPAllocator cidr (.ok p : Except ε Prefix) = .ok a₀)
    (hs : newDNSServer trimSpace lowerRune listenAddr suffix (some a₀) = .ok s) :
    (∀ w, (interceptor lowerRune s a₀).Reach w → ∀ q v, s.lookup lowerRune w.alloc q = some v →
      ∃ svc, svc ≠ [] ∧ svc ∈ w.calls ∧
        toLower lowerRune (trimSuffix q [dot]) = svc ++ normalise trimSpace lowerRune suffix ∧
        ∀ w', (interceptor lowerRune s a₀).ReachFrom w w' → w'.alloc.lookup v = svc) ∧
      ∀ w act w', (interceptor lowerRune s a₀).step w act = some w' →
        (∀ name, act ≠ .allocate name) → w'.alloc = w.alloc := by
  obtain ⟨net, hp, hz⟩ := newVIPAllocator_ok hnew
  obtain rfl : ⟨listenAddr, normalise trimSpace lowerRune suffix⟩ = s := Except.ok.inj hs
  constructor
  · intro w hw q v hv
    obtain ⟨svc, hne, hname, hpair⟩ := (reach_wired hp hz hw).lookup hv
    refine ⟨svc, hne, (mem_handout_iff.mp hpair).1, hname, fun w' hw' => ?_⟩
    have hkept : (svc, v) ∈ handout p.usable w'.calls :=
      Machine.ReachFrom.invariant (I := fun w => (svc, v) ∈ handout p.usable w.calls) hw hpair
        (fun _ _ _ _ h hst => step_handout hst h) hw'
    exact (reach_wired hp hz (hw.trans hw')).zipped.lookup_of_mem hkept
  · intro w act w' hst hact
    cases act with
    | allocate name => exact absurd rfl (hact name)
    | query | connect =>
      cases hst
      rfl

/-- `pay` -/
def pay : Bytes := [112, 97, 121]

theorem pay_never_crosswired :
    ∃ a₀ w v, newVIPAllocator [] (.ok slash29 : Except Unit Prefix) = .ok a₀ ∧
      (interceptor id ⟨[], []⟩ a₀).Reach w ∧
      DNSServer.lookup id ⟨[], []⟩ w.alloc (pay ++ [dot]) = some v ∧ w.alloc.lookup v = pay := by
  obtain ⟨a₀, hnew⟩ : ∃ a₀, newVIPAllocator [] (.ok slash29 : Except Unit Prefix) = .ok a₀ :=
    ⟨_, rfl⟩
  obtain ⟨net, hp, hz⟩ := newVIPAllocator_ok hnew
  have hw : (interceptor id ⟨[], []⟩ a₀).Reach ⟨(a₀.allocate pay).2, [pay], [], []⟩ :=
    Machine.reach_of_run [.allocate pay] rfl
  have hv : DNSServer.lookup id ⟨[], []⟩ (a₀.allocate pay).2 (pay ++ [dot]) =
      some (.v4 0x0A0000F9) :=
    lookup_eq_some_iff.mpr ⟨pay, by decide, by decide,
      (zipped_allocate hp hz pay).lookupName_iff.mpr (by decide)⟩
  obtain ⟨svc, -, hmem, -, hlater⟩ :=
    (never_crosswired id id [] slash29 a₀ [] [] ⟨[], []⟩ hnew rfl).1 _ hw _ _ hv
  refine ⟨a₀, _, _, hnew, hw, hv, ?_⟩
  rw [hlater _ .refl, List.mem_singleton.mp hmem]

/-! ## Consumed services -/

inductive Mode where
  | explicit
  | tproxy
  | unknown (mode : Bytes)

inductive StartError (ε : Type) where
  /-- `explicit --consume must be <svc>@<bind-addr>: %q` -/
  | consume (c : Bytes)
  /-- `intercept: no explicit mappings` -/
  | noMappings
  | vip (e : NewError ε)
  /-- `allocate vip for %s: %w` -/
  | allocate (svc : Bytes) (e : AllocateError)
  | dns (e : DNSError)
  /-- `unknown intercept mode: %s` -/
  | mode (mode : Bytes)

/-- An interceptor; its listeners are bound in `Intercept/Accept.lean`. -/
inductive Started where
  /-- `NewExplicit`, with the services and the addresses they are bound to. -/
  | explicit (mappings : List (Bytes × Bytes))
  /-- `NewTProxy`, and the DNS server. -/
  | tproxy (alloc : VIPAllocator) (dns : DNSServer)

/-- `DefaultVIPCIDR` -/
def defaultVIPCIDR : Bytes := "100.64.0.0/10".toUTF8.toList

/-- `DefaultVIPCIDR`, parsed. -/
def defaultVIP : Prefix := ⟨.v4 0x64400000, 10, nofun, by decide⟩

/-- `strings.Cut` at an `@`. -/
def cutAt : Bytes → Option (Bytes × Bytes)
  | [] => none
  | b :: s => if b = 64 then some ([], s) else (cutAt s).map fun t => (b :: t.1, t.2)

def explicitMappings {ε : Type} : List Bytes → Except (StartError ε) (List (Bytes × Bytes))
  | [] => .ok []
  | c :: consumes =>
    match cutAt c with
    | none => .error (.consume c)
    | some m => (explicitMappings consumes).map (m :: ·)

/-- `NewExplicit`, up to the binding of its listeners. -/
def newExplicit {ε : Type} (mappings : List (Bytes × Bytes)) : Except (StartError ε) Started :=
  if mappings.length = 0 then .error .noMappings else .ok (.explicit mappings)

/-- The loop over the consumed services. -/
def allocateConsumes {ε : Type} (alloc : VIPAllocator) :
    List Bytes → Except (StartError ε) VIPAllocator
  | [] => .ok alloc
  | svc :: consumes =>
    match alloc.allocate svc with
    | (.ok _, alloc) => allocateConsumes alloc consumes
    | (.error e, _) => .error (.allocate svc e)

def startInterceptor (trimSpace lowerRune : Bytes → Bytes) {ε : Type} (mode : Mode)
    (dnsAddr dnsSuffix : Bytes) (consumes : List Bytes) : Except (StartError ε) Started :=
  match mode with
  | .explicit =>
    match explicitMappings consumes with
    | .error e => .error e
    | .ok mappings => newExplicit mappings
  | .tproxy =>
    match newVIPAllocator defaultVIPCIDR (.ok defaultVIP : Except ε Prefix) with
    | .error e => .error (.vip e)
    | .ok alloc =>
      match allocateConsumes alloc consumes with
      | .error e => .error e
      | .ok alloc =>
        match newDNSServer trimSpace lowerRune dnsAddr dnsSuffix (some alloc) with
        | .error e => .error (.dns e)
        | .ok dns => .ok (.tproxy alloc dns)
  | .unknown mode => .error (.mode mode)

/-- `q` is `name` up to the case of ASCII letters, with or without a trailing dot. -/
def Spells (name q : Bytes) : Prop :=
  ∃ r, r.map lowerByte = name.map lowerByte ∧ (q = r ∨ q = r ++ [dot])

/-- The agent starts, and every spelling of the service is answered with the address of the service,
which is the address of no other. -/
def Resolvable (trimSpace lowerRune : Bytes → Bytes) (ε : Type) (dnsAddr dnsSuffix : Bytes)
    (consumes : List Bytes) (svc : Bytes) : Prop :=
  ∃ alloc dns,
    (startInterceptor trimSpace lowerRune .tproxy dnsAddr dnsSuffix consumes :
      Except (StartError ε) Started) = .ok (.tproxy alloc dns) ∧
    ∀ q, Spells (svc ++ dns.suffix) q → ∃ v, alloc.lookupName svc = some v ∧
      dns.lookup lowerRune alloc q = some v ∧ accept alloc v = some svc

section Consumed

variable {ε : Type} {p : Prefix} {net : BitVec 32} {calls consumes : List Bytes}
  {a a' : VIPAllocator}

/-- The loop ends without an error exactly if there are addresses enough. -/
theorem allocateConsumes_eq_ok (hp : p.addr = .v4 net) (hz : Zipped p calls a)
    (hfit : (distinct calls).length ≤ p.usable.length) :
    (allocateConsumes a consumes : Except (StartError ε) VIPAllocator) = .ok a' ↔
      a' = a.allocateAll consumes ∧ (distinct (calls ++ consumes)).length ≤ p.usable.length := by
  induction consumes generalizing calls a with
  | nil =>
    rw [allocateConsumes, List.append_nil, Except.ok.injEq]
    exact ⟨fun h => ⟨h.symm, hfit⟩, fun h => h.1.symm⟩
  | cons svc consumes ih =>
    have hstep := zipped_allocate hp hz svc
    have hresult := hz.result hp svc
    have hmore := length_distinct_snoc_le_iff (n := svc) hfit
    rw [allocateConsumes, List.append_cons]
    rw [VIPAllocator.allocateAll, List.foldl_cons]
    generalize a.allocate svc = r at hstep hresult
    obtain ⟨result, next⟩ := r
    by_cases hturn : turn calls svc < p.usable.length
    · rw [List.getElem?_eq_getElem hturn] at hresult
      cases hresult
      exact ih hstep (hmore.mpr hturn)
    · rw [List.getElem?_eq_none (Nat.le_of_not_lt hturn)] at hresult
      cases hresult
      obtain ⟨rest, hrest⟩ := exists_distinct_append (calls ++ [svc]) consumes
      rw [hrest, List.length_append]
      refine ⟨nofun, fun h => ?_⟩
      exact absurd (hmore.mp (Nat.le_trans (Nat.le_add_right _ _) h.2)) hturn

variable {trimSpace lowerRune : Bytes → Bytes} {dnsAddr dnsSuffix svc : Bytes} {dns : DNSServer}

/-- `NewVIPAllocator(DefaultVIPCIDR)` -/
def defaultAllocator : VIPAllocator :=
  ⟨defaultVIP.masked, ∅, ∅, defaultVIP.masked.addr.next⟩

theorem zipped_default (consumes : List Bytes) :
    Zipped defaultVIP consumes (defaultAllocator.allocateAll consumes) :=
  zipped_allocateAll rfl (zipped_new rfl) consumes

theorem startInterceptor_eq_ok :
    (startInterceptor trimSpace lowerRune .tproxy dnsAddr dnsSuffix consumes :
        Except (StartError ε) Started) = .ok (.tproxy a dns) ↔
      (a = defaultAllocator.allocateAll consumes ∧
        (distinct consumes).length ≤ defaultVIP.usable.length) ∧
        dns = ⟨dnsAddr, normalise trimSpace lowerRune dnsSuffix⟩ := by
  have hloop : ∀ a', (allocateConsumes defaultAllocator consumes : Except (StartError ε) _) =
      .ok a' ↔ a' = defaultAllocator.allocateAll consumes ∧
        (distinct consumes).length ≤ defaultVIP.usable.length :=
    fun _ => allocateConsumes_eq_ok rfl (zipped_new rfl) (Nat.zero_le _)
  have hnew : newVIPAllocator defaultVIPCIDR (.ok defaultVIP : Except ε Prefix) =
      .ok defaultAllocator := rfl
  rw [← hloop, startInterceptor]
  simp only [hnew, newDNSServer]
  cases (allocateConsumes defaultAllocator consumes : Except (StartError ε) VIPAllocator) with
  | error e => simp
  | ok alloc => simp [eq_comm]

theorem eq_dot_of_lowerByte {b : UInt8} (h : lowerByte b = dot) : b = dot := by
  have hnat := toNat_lowerByte b
  rw [h, show dot.toNat = 46 from rfl] at hnat
  split at hnat
  · omega
  · exact UInt8.toNat_inj.mp hnat.symm

/-- A trailing dot stays one in every spelling. -/
theorem dot_suffix_of_spells {name r : Bytes} (h : r.map lowerByte = name.map lowerByte)
    (hr : [dot] <:+ r) : [dot] <:+ name := by
  obtain ⟨m, rfl⟩ := hr
  rw [List.map_append] at h
  obtain ⟨m', e, rfl, -, he⟩ := List.map_eq_append_iff.mp h.symm
  obtain ⟨b, e', rfl, hb, he'⟩ := List.map_eq_cons_iff.mp he
  rw [List.map_eq_nil_iff.mp he', eq_dot_of_lowerByte hb]
  exact List.suffix_append m' [dot]

/-- Every spelling of a name is looked up in the same way. -/
theorem toLower_of_spells {name q : Bytes} (hdot : ¬ [dot] <:+ name) (hq : Spells name q) :
    toLower lowerRune (trimSuffix q [dot]) = toLower lowerRune name := by
  obtain ⟨r, hr, hq⟩ := hq
  have hlower : toLower lowerRune r = toLower lowerRune name := by
    rw [← toLower_map_lowerByte, hr, toLower_map_lowerByte]
  rcases hq with rfl | rfl
  · rw [trimSuffix_of_not fun h => hdot (dot_suffix_of_spells hr h), hlower]
  · rw [trimSuffix_append, hlower]

/-- What follows from the two spellings with the letters of the name itself. -/
theorem lower_of_spellings {name : Bytes}
    (h : toLower lowerRune (trimSuffix name [dot]) = name)
    (hdot : toLower lowerRune (trimSuffix (name ++ [dot]) [dot]) = name) :
    toLower lowerRune name = name ∧ ¬ [dot] <:+ name := by
  rw [trimSuffix_append] at hdot
  refine ⟨hdot, ?_⟩
  rintro ⟨m, rfl⟩
  have hm : toLower lowerRune (m ++ [dot]) = toLower lowerRune m ++ [dot] :=
    toLower_append lowerRune m fun b hb => by cases hb; decide
  rw [trimSuffix_append] at h
  rw [hm, h] at hdot
  have hlen := congrArg List.length hdot
  simp only [List.length_append, List.length_singleton] at hlen
  omega

end Consumed

/-- A consumed service can be resolved in every spelling exactly if there are addresses enough and
its name with the suffix is in lower case and has no dot at its end. -/
theorem consumed_resolvable_iff {ε : Type} (trimSpace lowerRune : Bytes → Bytes)
    (dnsAddr dnsSuffix : Bytes) (consumes : List Bytes) (svc : Bytes) (hne : svc ≠ [])
    (hmem : svc ∈ consumes) :
    Resolvable trimSpace lowerRune ε dnsAddr dnsSuffix consumes svc ↔
      (distinct consumes).length ≤ defaultVIP.usable.length ∧
        toLower lowerRune (svc ++ normalise trimSpace lowerRune dnsSuffix) =
          svc ++ normalise trimSpace lowerRune dnsSuffix ∧
        ¬ [dot] <:+ svc ++ normalise trimSpace lowerRune dnsSuffix := by
  constructor
  · rintro ⟨alloc, dns, hstart, hall⟩
    obtain ⟨⟨rfl, hfit⟩, rfl⟩ := startInterceptor_eq_ok.mp hstart
    have hz := zipped_default consumes
    -- The answer to a spelling is the address of `svc`, so it is `svc` that is looked up.
    have hlookup : ∀ q, Spells (svc ++ normalise trimSpace lowerRune dnsSuffix) q →
        toLower lowerRune (trimSuffix q [dot]) =
          svc ++ normalise trimSpace lowerRune dnsSuffix := by
      intro q hq
      obtain ⟨v, hv, hlook, -⟩ := hall q hq
      obtain ⟨svc', -, hname, hv'⟩ := lookup_eq_some_iff.mp hlook
      rw [hname, ← hz.lookup_of_mem (hz.lookupName_iff.mp hv'),
        hz.lookup_of_mem (hz.lookupName_iff.mp hv)]
    exact ⟨hfit, lower_of_spellings (hlookup _ ⟨_, rfl, .inl rfl⟩) (hlookup _ ⟨_, rfl, .inr rfl⟩)⟩
  · rintro ⟨hfit, hlow, hdot⟩
    have hz := zipped_default consumes
    refine ⟨_, _, startInterceptor_eq_ok.mpr ⟨⟨rfl, hfit⟩, rfl⟩, fun q hq => ?_⟩
    have hturn : turn consumes svc < defaultVIP.usable.length :=
      Nat.lt_of_lt_of_le (turn_lt hmem) hfit
    have hpair : (svc, defaultVIP.usable[turn consumes svc]) ∈ handout defaultVIP.usable consumes :=
      mem_handout_iff.mpr ⟨hmem, List.getElem?_eq_getElem hturn⟩
    have hv := hz.lookupName_iff.mpr hpair
    have hname := (toLower_of_spells hdot hq).trans hlow
    refine ⟨_, hv, lookup_eq_some_iff.mpr ⟨svc, hne, hname, hv⟩, ?_⟩
    rw [accept, hz.lookup_of_mem hpair]
    exact if_neg hne

theorem one_le_usable : 1 ≤ defaultVIP.usable.length :=
  List.length_pos_of_mem
    ((Prefix.mem_usable (a := 0x64400000) (v := .v4 0x64400001) rfl).mpr (by decide))

theorem pay_resolvable : Resolvable id id Unit [] [] [pay] pay :=
  (consumed_resolvable_iff id id [] [] [pay] pay (by decide) (by decide)).mpr
    ⟨one_le_usable, by decide, by decide⟩

/-- `Pay` -/
def upperPay : Bytes := [80, 97, 121]

/-- `outrelay` -/
def outrelay : Bytes := [111, 117, 116, 114, 101, 108, 97, 121]

/-- The service `Pay` has an address, and no spelling of its name is answered. -/
theorem unresolvable_upper_case :
    ∃ alloc dns,
      (startInterceptor id id .tproxy [] outrelay [upperPay] :
        Except (StartError Unit) Started) = .ok (.tproxy alloc dns) ∧
      (alloc.lookupName upperPay).isSome ∧
      ∀ q, Spells (upperPay ++ dns.suffix) q → dns.lookup id alloc q = none := by
  have hz := zipped_default [upperPay]
  refine ⟨_, _, startInterceptor_eq_ok.mpr ⟨⟨rfl, one_le_usable⟩, rfl⟩, ?_, ?_⟩
  · obtain ⟨v, hv⟩ : ∃ v, defaultVIP.usable[turn [upperPay] upperPay]? = some v :=
      ⟨_, List.getElem?_eq_getElem one_le_usable⟩
    rw [hz.lookupName_iff.mpr (mem_handout_iff.mpr ⟨List.mem_singleton_self _, hv⟩)]
    rfl
  · intro q hq
    refine Option.eq_none_iff_forall_ne_some.mpr fun v hv => ?_
    obtain ⟨svc, -, hname, hsvc⟩ := lookup_eq_some_iff.mp hv
    have hmem := (mem_handout_iff.mp (hz.lookupName_iff.mp hsvc)).1
    rw [List.mem_singleton.mp hmem, toLower_of_spells (by decide) hq] at hname
    revert hname
    decide

/-! ## The documented names -/

/-- The query is, up to case and one trailing dot, the name of a service that has the address `v`,
bare or with the suffix. The suffix of a server is in lower case. -/
def Documented (lowerRune : Bytes → Bytes) (s : DNSServer) (alloc : VIPAllocator) (q : Bytes)
    (v : Addr) : Prop :=
  ∃ svc, alloc.lookupName svc = some v ∧
    (toLower lowerRune (trimSuffix q [dot]) = toLower lowerRune svc ∨
      toLower lowerRune (trimSuffix q [dot]) = toLower lowerRune svc ++ s.suffix)

/-- The query is answered as documented. -/
structure Recognizes (lowerRune : Bytes → Bytes) (s : DNSServer) (alloc : VIPAllocator)
    (q : Bytes) : Prop where
  found : ∀ v, s.lookup lowerRune alloc q = some v ↔ Documented lowerRune s alloc q v
  nxdomain : (∀ v, ¬ Documented lowerRune s alloc q v) →
    s.respond lowerRune alloc .a q = ⟨.nameError, []⟩

section Names

variable {lowerRune : Bytes → Bytes} {s : DNSServer} {p : Prefix} {calls : List Bytes}
  {alloc : VIPAllocator} {q svc svc' : Bytes} {v : Addr}

theorem respond_of_lookup_none (h : s.lookup lowerRune alloc q = none) :
    s.respond lowerRune alloc .a q = ⟨.nameError, []⟩ := by
  unfold DNSServer.respond
  rw [h]

/-- An address belongs to one name. -/
theorem Zipped.name_unique (hz : Zipped p calls alloc) (h : alloc.lookupName svc = some v)
    (h' : alloc.lookupName svc' = some v) : svc = svc' := by
  rw [← hz.lookup_of_mem (hz.lookupName_iff.mp h), hz.lookup_of_mem (hz.lookupName_iff.mp h')]

/-- With names in lower case, what is looked up is a name with the suffix. -/
theorem lookup_iff_suffixed (hz : Zipped p calls alloc)
    (hnames : ∀ n ∈ calls, n ≠ [] ∧ toLower lowerRune n = n) :
    s.lookup lowerRune alloc q = some v ↔ ∃ svc, alloc.lookupName svc = some v ∧
      toLower lowerRune (trimSuffix q [dot]) = toLower lowerRune svc ++ s.suffix := by
  have hname : ∀ svc, alloc.lookupName svc = some v → svc ≠ [] ∧ toLower lowerRune svc = svc :=
    fun svc h => hnames svc (mem_handout_iff.mp (hz.lookupName_iff.mp h)).1
  rw [lookup_eq_some_iff]
  constructor
  · rintro ⟨svc, -, hq, hv⟩
    exact ⟨svc, hv, by rw [hq, (hname svc hv).2]⟩
  · rintro ⟨svc, hv, hq⟩
    exact ⟨svc, (hname svc hv).1, by rw [hq, (hname svc hv).2], hv⟩

/-- A bare name is answered exactly if there is no suffix. -/
theorem bare_name_iff (hz : Zipped p calls alloc)
    (hnames : ∀ n ∈ calls, n ≠ [] ∧ toLower lowerRune n = n)
    (hv : alloc.lookupName svc = some v)
    (hq : toLower lowerRune (trimSuffix q [dot]) = toLower lowerRune svc) :
    s.lookup lowerRune alloc q = some v ↔ s.suffix = [] := by
  rw [lookup_iff_suffixed hz hnames]
  constructor
  · rintro ⟨svc', hv', hq'⟩
    rw [hz.name_unique hv' hv, hq] at hq'
    exact List.self_eq_append_right.mp hq'
  · intro hs
    exact ⟨svc, hv, by rw [hq, hs, List.append_nil]⟩

end Names

/-- **A query is answered as documented exactly if there is no suffix or the query is not the bare
name of a service.** -/
theorem documented_names_iff {ε : Type} (trimSpace lowerRune : Bytes → Bytes) (cidr : Bytes)
    (p : Prefix) (a₀ : VIPAllocator) (listenAddr suffix : Bytes) (s : DNSServer)
    (hnew : newVIPAllocator cidr (.ok p : Except ε Prefix) = .ok a₀)
    (hs : newDNSServer trimSpace lowerRune listenAddr suffix (some a₀) = .ok s)
    (calls : List Bytes) (hnames : ∀ n ∈ calls, n ≠ [] ∧ toLower lowerRune n = n) (q : Bytes) :
    Recognizes lowerRune s (a₀.allocateAll calls) q ↔
      normalise trimSpace lowerRune suffix = [] ∨
        (a₀.allocateAll calls).lookupName (toLower lowerRune (trimSuffix q [dot])) = none := by
  obtain ⟨net, hp, hz₀⟩ := newVIPAllocator_ok hnew
  have hsuffix : s.suffix = normalise trimSpace lowerRune suffix := by
    cases hs
    rfl
  have hz : Zipped p calls (a₀.allocateAll calls) := by
    simpa using zipped_allocateAll hp hz₀ calls
  rw [← hsuffix]
  generalize a₀.allocateAll calls = alloc at hz
  have hlower : ∀ svc v, alloc.lookupName svc = some v → toLower lowerRune svc = svc :=
    fun svc v h => (hnames svc (mem_handout_iff.mp (hz.lookupName_iff.mp h)).1).2
  constructor
  · intro h
    by_contra hnot
    obtain ⟨hne, hsome⟩ := not_or.mp hnot
    obtain ⟨v, hv⟩ := Option.ne_none_iff_exists'.mp hsome
    -- The query is a bare name, so it is documented and not answered.
    have hq := (hlower _ v hv).symm
    exact hne ((bare_name_iff hz hnames hv hq).mp ((h.found v).mpr ⟨_, hv, .inl hq⟩))
  · intro hcond
    have hfound : ∀ v, s.lookup lowerRune alloc q = some v ↔ Documented lowerRune s alloc q v := by
      intro v
      rw [lookup_iff_suffixed hz hnames]
      constructor
      · rintro ⟨svc, hv, hq⟩
        exact ⟨svc, hv, .inr hq⟩
      · rintro ⟨svc, hv, hq | hq⟩
        · rcases hcond with hnil | hnone
          · exact ⟨svc, hv, by rw [hq, hnil, List.append_nil]⟩
          · rw [hq, hlower svc v hv, hv] at hnone
            cases hnone
        · exact ⟨svc, hv, hq⟩
    refine ⟨hfound, fun hnot => respond_of_lookup_none ?_⟩
    exact Option.eq_none_iff_forall_ne_some.mpr fun v hv => hnot v ((hfound v).mp hv)

/-- `PAY.outrelay.` -/
def upperQuery : Bytes := [80, 65, 89] ++ [dot] ++ outrelay ++ [dot]

theorem suffixed_name_recognized :
    ∃ a₀, newVIPAllocator [] (.ok slash29 : Except Unit Prefix) = .ok a₀ ∧
      Recognizes id ⟨[], dot :: outrelay⟩ (a₀.allocateAll [pay]) upperQuery := by
  obtain ⟨a₀, hnew⟩ : ∃ a₀, newVIPAllocator [] (.ok slash29 : Except Unit Prefix) = .ok a₀ :=
    ⟨_, rfl⟩
  obtain ⟨net, hp, hz⟩ := newVIPAllocator_ok hnew
  have hz := zipped_allocateAll hp hz [pay]
  refine ⟨a₀, hnew, (documented_names_iff id id [] slash29 a₀ [] outrelay ⟨[], dot :: outrelay⟩
    hnew rfl [pay] (by decide) upperQuery).mpr (.inr ?_)⟩
  refine Option.eq_none_iff_forall_ne_some.mpr fun v hv => ?_
  have hmem := (mem_handout_iff.mp (hz.lookupName_iff.mp hv)).1
  revert hmem
  decide

/-- **A bare name.** With the suffix `outrelay`, the query `pay` for the service `pay` is answered
that there is no such name. -/
theorem bare_name_refused :
    ∃ a₀ v, newVIPAllocator [] (.ok slash29 : Except Unit Prefix) = .ok a₀ ∧
      newDNSServer id id [] outrelay (some a₀) = .ok ⟨[], dot :: outrelay⟩ ∧
      Documented id ⟨[], dot :: outrelay⟩ (a₀.allocateAll [pay]) pay v ∧
      DNSServer.respond id ⟨[], dot :: outrelay⟩ (a₀.allocateAll [pay]) .a pay =
        ⟨.nameError, []⟩ := by
  obtain ⟨a₀, hnew⟩ : ∃ a₀, newVIPAllocator [] (.ok slash29 : Except Unit Prefix) = .ok a₀ :=
    ⟨_, rfl⟩
  obtain ⟨net, hp, hz⟩ := newVIPAllocator_ok hnew
  have hz := zipped_allocateAll hp hz [pay]
  have hv : (a₀.allocateAll [pay]).lookupName pay = some (.v4 0x0A0000F9) :=
    hz.lookupName_iff.mpr (by decide)
  refine ⟨a₀, _, hnew, rfl, ⟨pay, hv, .inl rfl⟩, respond_of_lookup_none ?_⟩
  refine Option.eq_none_iff_forall_ne_some.mpr fun v hlook => ?_
  obtain ⟨svc, -, hname, -⟩ := lookup_eq_some_iff.mp hlook
  have hlen := congrArg List.length hname
  rw [List.length_append, show (toLower id (trimSuffix pay [dot])).length = 3 from rfl] at hlen
  simp only [List.length_cons, outrelay] at hlen
  omega

end OutRelayAgent.Intercept
