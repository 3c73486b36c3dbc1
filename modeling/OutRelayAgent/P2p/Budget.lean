import OutRelayAgent.P2p.Gather

/-!
# The time a connectivity check has

`tryPromote` gives a promotion 5 seconds (`main.go:453-483`), and `main` gives each dial of
`Engine.Check` 2 (`main.go:294`). `check.go:105` derives the context of a dial from that of the
promotion, so the shorter of the two ends it. `P2p/Promoter.lean` leaves time out; here its dialler
and its context are the ones that the clock gives, and the clock is read off its log.

Times are in milliseconds from the start of the promotion. A peer's address lets a dial succeed
after some time, refuses it after some time, or says nothing, as an address does that is not
routed or whose NAT has no mapping.

* `check_of_silent`: what comes of a check whose candidates say nothing, up to the last.
* `nat_promotion_iff`: an agent behind a NAT is dialled at its server-reflexive address after all
  its other candidates. If these say nothing, that dial succeeds exactly when it takes less than 2
  seconds and the answer, 2 seconds for each of them and the dial itself less than 5 seconds.
  So with three other candidates the address that `main` queries the relay for is of no use.
-/

namespace OutRelayAgent.P2p

section Clock

variable {IP : Type}

/-- `SetPerPairTimeout(2 * time.Second)` -/
def perPairTimeout : ℕ := 2000

/-- `context.WithTimeout(parent, 5*time.Second)` -/
def promoteTimeout : ℕ := 5000

/-- What becomes of a dial. -/
inductive Reaction
  | connects (after : ℕ)
  | refuses (after : ℕ)
  | silent
  deriving DecidableEq

inductive DialError
  | refused
  | deadlineExceeded

/-- How long a dial may take that begins at `t`. -/
def allowed (t : ℕ) : ℕ := min perPairTimeout (promoteTimeout - t)

/-- How long it takes. -/
def Reaction.takes : Reaction → ℕ → ℕ
  | .connects d, n => min d n
  | .refuses d, n => min d n
  | .silent, n => n

def Reaction.outcome : Reaction → ℕ → Except DialError ℕ
  | .connects d, n => if d < n then .ok 0 else .error .deadlineExceeded
  | .refuses d, n => if d < n then .error .refused else .error .deadlineExceeded
  | .silent, _ => .error .deadlineExceeded

/-- The time at the end of a log that began at `t₀`, of which only the dials take time. -/
def clock (peer : AddrPort IP → Reaction) (t₀ : ℕ) (log : Log IP DialError) : ℕ :=
  log.foldl (fun t e =>
    match e with
    | .dialed c _ => t + (peer c.addr).takes (allowed t)
    | _ => t) t₀

/-- `SharedTransport.Dial` -/
def timedDial (peer : AddrPort IP → Reaction) (t₀ : ℕ) : Dialer IP DialError := fun log a =>
  (peer a).outcome (allowed (clock peer t₀ log))

def timedEnv (net : Netip IP) (peer : AddrPort IP → Reaction) (t₀ : ℕ) : Env IP DialError where
  netip := net
  dialQUIC := timedDial peer t₀
  ctxErr log := if promoteTimeout ≤ clock peer t₀ log then some .deadlineExceeded else none

/-- The engine of `main`, with `SetDialer(sharedTransport)`. -/
def timedEngine (peer : AddrPort IP → Reaction) (t₀ : ℕ) : Engine IP DialError :=
  ⟨some (timedDial peer t₀)⟩

end Clock

section Check

variable {IP : Type} {net : Netip IP} {peer : AddrPort IP → Reaction} {t₀ : ℕ}
  {locals : List (Candidate IP)}

theorem clock_dialed (log : Log IP DialError) (c : Candidate IP) (r : Except DialError ℕ) :
    clock peer t₀ (log ++ [.dialed c r]) =
      clock peer t₀ log + (peer c.addr).takes (allowed (clock peer t₀ log)) := by
  simp [clock]

/-- The check of `main`, on candidates in order. -/
abbrev timedLoop (net : Netip IP) (peer : AddrPort IP → Reaction) (t₀ : ℕ)
    (locals rs : List (Candidate IP)) (log : Log IP DialError) :
    Log IP DialError × Except (Err DialError) (CheckResult IP) :=
  checkLoop (timedDial peer t₀) (timedEnv net peer t₀).ctxErr locals rs log

/-- The last candidate. -/
theorem timedLoop_last {c : Candidate IP} {d : ℕ} (hc : c.addr.isValid = true)
    (hd : peer c.addr = .connects d) (log : Log IP DialError) :
    (∃ res, (timedLoop net peer t₀ locals [c] log).2 = .ok res ∧ res.remote = c) ↔
      d < perPairTimeout ∧ clock peer t₀ log + d < promoteTimeout := by
  have hiff : d < allowed (clock peer t₀ log) ↔
      d < perPairTimeout ∧ clock peer t₀ log + d < promoteTimeout := by
    unfold allowed
    omega
  by_cases hlt : d < allowed (clock peer t₀ log)
  · have hdial : timedDial peer t₀ log c.addr = .ok 0 := by
      simp [timedDial, hd, Reaction.outcome, hlt]
    rw [← hiff]
    simp [timedLoop, checkLoop, hc, hdial, hlt]
  · have hdial : timedDial peer t₀ log c.addr = .error .deadlineExceeded := by
      simp [timedDial, hd, Reaction.outcome, hlt]
    rw [← hiff]
    simp only [timedLoop, checkLoop, hc, hdial, hlt, if_true, iff_false]
    split <;> simp

/-- **Candidates that say nothing, and one that does.** -/
theorem check_of_silent {rs : List (Candidate IP)} {c : Candidate IP} {d : ℕ}
    (hrs : ∀ r ∈ rs, r.addr.isValid = true ∧ peer r.addr = .silent)
    (hc : c.addr.isValid = true) (hd : peer c.addr = .connects d) (log : Log IP DialError) :
    (∃ res, (timedLoop net peer t₀ locals (rs ++ [c]) log).2 = .ok res ∧ res.remote = c) ↔
      d < perPairTimeout ∧
        clock peer t₀ log + rs.length * perPairTimeout + d < promoteTimeout := by
  induction rs generalizing log with
  | nil => simpa using timedLoop_last hc hd log
  | cons r rs ih =>
    obtain ⟨hvalid, hsilent⟩ := hrs r List.mem_cons_self
    have hdial : timedDial peer t₀ log r.addr = .error .deadlineExceeded := by
      simp [timedDial, hsilent, Reaction.outcome]
    have hclock : clock peer t₀ (log ++ [.dialed r (.error .deadlineExceeded)]) =
        clock peer t₀ log + allowed (clock peer t₀ log) := by
      rw [clock_dialed, hsilent]
      rfl
    rw [timedLoop, List.cons_append, checkLoop, if_pos hvalid, hdial]
    dsimp only [timedEnv]
    rw [hclock]
    by_cases hover : promoteTimeout ≤ clock peer t₀ log + allowed (clock peer t₀ log)
    · -- the context has ended with this dial
      rw [if_pos hover]
      constructor
      · rintro ⟨res, hres, -⟩
        cases hres
      · rintro ⟨-, hlt⟩
        unfold allowed perPairTimeout promoteTimeout at *
        simp only [List.length_cons] at hlt
        omega
    · rw [if_neg hover]
      have hnext := ih (fun q hq => hrs q (List.mem_cons_of_mem r hq))
        (log ++ [.dialed r (.error .deadlineExceeded)])
      rw [hclock] at hnext
      refine hnext.trans ?_
      unfold allowed perPairTimeout promoteTimeout at *
      simp only [List.length_cons]
      omega

end Check

section Nat

variable {ε : Type} {net : Netip Addr} {addrs : Except ε (List IfaceAddr)} {port : UInt16}

/-- The server-reflexive candidate is the last. -/
theorem sort_mainLocals_srflx (s : Endpoint) (advertise : Option Endpoint) :
    Candidate.sort (mainLocals addrs port (some s) advertise) =
      Candidate.sort (mainLocals addrs port none advertise) ++ [srflxCandidate s] := by
  rw [sort_mainLocals, sort_mainLocals]
  simp

/-- **Promotion through a NAT.** -/
theorem nat_promotion_iff (hnet : net.Lawful) (s : Endpoint) (advertise : Option Endpoint)
    {peer : AddrPort Addr → Reaction} {d : ℕ}
    (hsilent : ∀ c ∈ mainLocals addrs port none advertise, peer c.addr = .silent)
    (hd : peer (srflxCandidate s).addr = .connects d) (t₀ : ℕ) (locals : List (Candidate Addr))
    (log : Log Addr DialError) :
    (∃ res, ((timedEngine peer t₀).check (timedEnv net peer t₀) locals
        (fromPB net (toPBCandidates net (mainLocals addrs port (some s) advertise))) log).2 =
          .ok res ∧ res.remote = srflxCandidate s) ↔
      d < perPairTimeout ∧
        clock peer t₀ log + (mainLocals addrs port none advertise).length * perPairTimeout + d <
          promoteTimeout := by
  have hperm := (sort_descending (mainLocals addrs port none advertise)).perm
  have hbefore : ∀ r ∈ Candidate.sort (mainLocals addrs port none advertise),
      r.addr.isValid = true ∧ peer r.addr = .silent := by
    intro r hr
    have hmem := hperm.mem_iff.mp hr
    exact ⟨mainLocals_valid none advertise r hmem, hsilent r hmem⟩
  rw [fromPB_toPBCandidates hnet, Engine.check, sort_mainLocals_srflx, ← hperm.length_eq]
  exact check_of_silent hbefore rfl hd log

/-- Two private addresses, of which the peer has no route to either. -/
def twoPrivate : Except Unit (List IfaceAddr) :=
  .ok [.ipNet (some [10, 0, 0, 5]), .ipNet (some [172, 17, 0, 1])]

def mapped : Endpoint := ⟨.ofOctets 198 51 100 1, 40001⟩

def behindNat (a : AddrPort Addr) : Reaction :=
  if a.addr = some mapped.ip then .connects 80 else .silent

/-- The answer comes after 300 milliseconds, and the dial begins after 4300. -/
theorem nat_promotion_iff_two :
    ∃ res, ((timedEngine behindNat 300).check (timedEnv byteNetip behindNat 300) []
      (fromPB byteNetip (toPBCandidates byteNetip
        (mainLocals twoPrivate 7445 (some mapped) none))) []).2 = .ok res ∧
      res.remote = srflxCandidate mapped := by
  refine (nat_promotion_iff byteNetip_lawful mapped none ?_ rfl 300 [] []).mpr ?_
  · decide
  · decide

end Nat

end OutRelayAgent.P2p
