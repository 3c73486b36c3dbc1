import OutRelayAgent.Agent.Start
import OutRelayAgent.P2p.Punch
import OutRelayAgent.Session.Attempts

/-!
# Agents that are up

What `main` has put together (`Agent/Start.lean`) is kept for the life of an agent, and others have
to do with it. `RunWithReconnect` gets the endpoints the first session was dialled at, and passes
them to every `Reconnect` (`Session/Attempts.lean`). The candidates that `main` registers are what
other agents dial and punch (`P2p/Punch.lean`); nobody registers others later.

* `transport_for_life`: an agent that came up over QUIC dials none but the endpoints of `--relay`
  ever after, and one that came up over TCP none but those of `--relay-tcp`. The list is never
  empty, so `Reconnect` does not fail for that.
* `dials_reach_listeners`: whatever an agent dials is a candidate that the other end has gathered
  for its listener. So an agent that is on TCP or without `--p2p-listen` is never dialled or
  punched, and it punches none.
* `fallback_promotes`: it does dial others, although the flag `--relay-tcp` is documented to disable
  promotion.
-/

namespace OutRelayAgent.Start

open Lib P2p

/-! ## For life -/

section Life

variable {h : Host} {f : Flags} {w : World} {ID N H : Type}

/-- `RunWithReconnect` passes its addresses to every `Reconnect`. -/
def passesOn (addrs : List String) (a : Attempts.Act ID N H) : Prop :=
  ∀ addrs', a = .reconnect addrs' → addrs' = addrs

/-- The addresses an attempt still has. -/
def left : Attempts.Phase N → List String
  | .dial rest _ => rest
  | .hello _ _ addr rest _ => addr :: rest
  | _ => []

/-- An attempt dials from a list, which is not empty. -/
structure DialsFrom (addrs : List String) (v : Attempts.World ID N H) : Prop where
  tried : ∀ x ∈ v.attempt.tried, x.1 ∈ addrs
  left : ∀ addr ∈ left v.phase, addr ∈ addrs
  begun : v.phase ≠ .returned (some .noAddr)

variable {addrs : List String} {v v' : Attempts.World ID N H}

theorem dialNext_begun [DecidableEq ID] {c : Attempts.Choice N} {p : Attempts.Phase N}
    (hn : Attempts.dialNext v p c = some v') : v'.phase ≠ .returned (some .noAddr) := by
  unfold Attempts.dialNext at hn
  split at hn
  case h_5 => split at hn <;> cases hn <;> simp
  all_goals cases hn <;> simp

theorem replayNext_begun [DecidableEq N] {c : Attempts.Choice N} {p : Attempts.Phase N}
    (hn : Attempts.replayNext v p c = some v') : v'.phase ≠ .returned (some .noAddr) := by
  unfold Attempts.replayNext at hn
  split at hn
  case h_1 =>
    split at hn
    · cases hn
      simp
    · cases hn
  all_goals cases hn <;> simp

theorem resumeNext_begun [DecidableEq ID] {c : Attempts.Choice N} {p : Attempts.Phase N}
    (hn : Attempts.resumeNext v p c = some v') : v'.phase ≠ .returned (some .noAddr) := by
  unfold Attempts.resumeNext at hn
  split at hn
  case h_1 =>
    split at hn
    · cases hn
      simp
    · cases hn
  all_goals cases hn <;> simp

variable [DecidableEq ID] [DecidableEq N]

/-- Only the check at the beginning of `Reconnect` returns this error. -/
theorem next_begun {c : Attempts.Choice N} (hn : Attempts.next v c = some v') :
    v'.phase ≠ .returned (some .noAddr) := by
  unfold Attempts.next at hn
  split at hn
  · cases hn
  · unfold Attempts.exposeNext at hn
    split at hn <;> cases hn <;> simp
  all_goals first | exact dialNext_begun hn | exact replayNext_begun hn | exact resumeNext_begun hn

/-- Addresses come off the list one after the other. -/
theorem moves_from {p : Attempts.Phase N} (htried : ∀ x ∈ v.attempt.tried, x.1 ∈ addrs)
    (hleft : ∀ addr ∈ left p, addr ∈ addrs) (hm : Attempts.Moves v p v') :
    (∀ x ∈ v'.attempt.tried, x.1 ∈ addrs) ∧ ∀ addr ∈ left v'.phase, addr ∈ addrs := by
  have hmore : ∀ addr o, addr ∈ addrs → ∀ x ∈ (v.tried addr o).tried, x.1 ∈ addrs :=
    fun addr o haddr => List.forall_mem_append.mpr ⟨htried, List.forall_mem_singleton.mpr haddr⟩
  cases hm with
  | dials => exact ⟨htried, hleft⟩
  | dialFails =>
    exact ⟨hmore _ _ (hleft _ List.mem_cons_self),
      fun addr haddr => hleft addr (List.mem_cons_of_mem _ haddr)⟩
  | stageDone => exact ⟨htried, hleft⟩
  | completes => exact ⟨hmore _ _ (hleft _ List.mem_cons_self), fun addr haddr => by cases haddr⟩
  | stageFails =>
    exact ⟨hmore _ _ (hleft _ List.mem_cons_self),
      fun addr haddr => hleft addr (List.mem_cons_of_mem _ haddr)⟩
  | _ => exact ⟨htried, fun addr haddr => by cases haddr⟩

theorem DialsFrom.step {a : Attempts.Act ID N H} (hne : addrs ≠ []) (hv : DialsFrom addrs v)
    (ha : passesOn addrs a) (hs : Attempts.step v a = some v') : DialsFrom addrs v' := by
  cases a with
  | reconnect addrs' =>
    obtain rfl := ha addrs' rfl
    simp only [Attempts.step] at hs
    split at hs
    · split at hs
      · exact absurd rfl hne
      · cases hs
        exact ⟨fun x hx => (by cases hx), fun addr haddr => haddr, by simp⟩
    · cases hs
  | expose name localAddr hdl =>
    simp only [Attempts.step] at hs
    split at hs
    · cases hs
      exact ⟨hv.tried, fun addr haddr => (by cases haddr), by simp⟩
    · cases hs
  | step c =>
    have hmoves := moves_from hv.tried hv.left (Attempts.next_moves hs)
    exact ⟨hmoves.1, hmoves.2, next_begun hs⟩
  | other e =>
    simp only [Attempts.step] at hs
    split at hs
    · cases hs
      exact ⟨hv.tried, hv.left, hv.begun⟩
    · cases hs

theorem reach_dialsFrom [Inhabited ID] (hne : addrs ≠ [])
    (hv : (Attempts.machine ID N H).ReachWhile (fun _ a => passesOn addrs a) v) :
    DialsFrom addrs v := by
  refine Machine.ReachWhile.invariant (M := Attempts.machine ID N H) (I := DialsFrom addrs)
    ?_ ?_ hv
  · exact ⟨fun x hx => (by cases hx), fun addr haddr => (by cases haddr),
      fun hp => (by cases hp)⟩
  · exact fun v a v' _ hI ha hs => hI.step hne ha hs

theorem endpoints_ne_nil (h : Host) (f : Flags) (d : Dialer) : h.endpoints f d ≠ [] := by
  cases d <;> simp [Host.endpoints, Host.split, List.splitOn]

/-- **An agent keeps to the transport it came up on.** -/
theorem transport_for_life [Inhabited ID] (hr : (program h f).Reach w) (hp : w.phase = .run) :
    ∃ d, w.session = some d ∧
      (d = .tcp → f.relayTCP ≠ "" ∧
        ∃ d', d' ≠ .tcp ∧ (Call.dialAnyHappy d' (h.endpoints f d'), false) ∈ w.calls) ∧
      ∀ v, (Attempts.machine ID N H).ReachWhile (fun _ a => passesOn w.reconnectAddrs a) v →
        v.phase ≠ .returned (some .noAddr) ∧ ∀ x ∈ v.attempt.tried, x.1 ∈ h.endpoints f d := by
  obtain ⟨d, hw⟩ := wired_of_run hr hp
  refine ⟨d, hw.session, hw.tcp, fun v hv => ?_⟩
  rw [hw.addrs] at hv
  have hfrom := reach_dialsFrom (endpoints_ne_nil h f d) hv
  exact ⟨hfrom.begun, hfrom.tried⟩

/-- The agent that had to go over TCP tries again, at none but its endpoint for TCP. -/
theorem transport_for_life_overTCP :
    (after overTCP).session = some .tcp ∧
      ∃ v, (Attempts.machine ℕ ℕ ℕ).ReachWhile
          (fun _ a => passesOn (after overTCP).reconnectAddrs a) v ∧
        v.attempt.tried ≠ [] ∧ ∃ d, (after overTCP).session = some d ∧
          ∀ x ∈ v.attempt.tried, x.1 ∈ plainHost.endpoints bothFlags d := by
  obtain ⟨d, hd, -, hall⟩ :=
    @transport_for_life plainHost bothFlags (after overTCP) ℕ ℕ ℕ _ _ _ reach_overTCP rfl
  have hbegun := Machine.ReachWhile.step (M := Attempts.machine ℕ ℕ ℕ)
    (C := fun _ a => passesOn (after overTCP).reconnectAddrs a) .init
    (a := .reconnect (after overTCP).reconnectAddrs) (fun _ h => (by cases h; rfl)) rfl
  have hfailed := hbegun.step (a := .step .err) (fun _ h => (by cases h)) rfl
  exact ⟨rfl, _, hfailed, List.cons_ne_nil _ _, d, hd, (hall _ hfailed).2⟩

end Life

/-! ## A fleet -/

section Fleet

variable {A : Type}

/-- Agents that are up, each with flags of its own. -/
structure Fleet (A : Type) where
  host : Host
  flags : A → Flags
  world : A → World
  up : ∀ a, (program host (flags a)).Reach (world a) ∧ (world a).phase = .run
  nat : A → Endpoint → Endpoint
  letsIn : A → List Endpoint → Endpoint → Endpoint → Bool
  relay : Endpoint
  peerOf : A → UInt64 → Option A
  /-- What `net.InterfaceAddrs` returns to `Promote`. -/
  ifaces : A → Except String (List IfaceAddr)

/-- The agents as they come out of `main`. -/
def Fleet.setup (F : Fleet A) : Punch.Setup A where
  net := F.host.net
  nat := F.nat
  letsIn := F.letsIn
  relay := F.relay
  peerOf := F.peerOf
  shared a := (F.world a).session = some .shared
  registered a := (F.world a).localCandidates
  hosts a := hostCandidates (F.ifaces a) 0

/-- Nobody but `main` calls `SetLocalCandidates`. -/
def settled : Punch.Act A → Bool
  | .setLocalCandidates _ _ => false
  | _ => true

variable {w w' : Punch.World A}

/-- Without a `SharedTransport` there is nothing to write to. -/
theorem not_punching {s : Punch.Setup A} {b c : A} {m : CandidateOffer} {e : Endpoint}
    {todo failed : List Endpoint} (hinv : Punch.Inv s w) (hb : s.shared b = false) :
    w.reader b ≠ .punching c m (e :: todo) failed := by
  intro hr
  have hreader := hinv.reader b
  rw [hr] at hreader
  obtain ⟨-, done, hsplit, -⟩ := hreader
  rw [hb] at hsplit
  exact absurd hsplit.symm (by simp [warmupPunch])

section Settled

variable [DecidableEq A] {s : Punch.Setup A}

theorem punched_forward (w : Punch.World A) (f : Punch.Frame A) (b : Option A) :
    (w.forward f b).punched = w.punched := by
  cases b <;> rfl

/-- What a step keeps: the candidates, unless they are registered, and what an agent has punched,
unless it punches. -/
theorem step_keeps {x : Punch.Act A} (hs : Punch.step s w x = some w') :
    (settled x = true → w'.registered = w.registered) ∧
      ∀ b, (∀ ok, x ≠ .punch b ok) → w'.punched b = w.punched b := by
  cases x with
  | setLocalCandidates a cs =>
    cases hs
    exact ⟨fun hx => (by cases hx), fun b _ => rfl⟩
  | promote a id =>
    cases hs
    exact ⟨fun _ => Punch.World.registered_forward w _ _,
      fun b _ => congrFun (punched_forward w _ _) b⟩
  | lose a k =>
    cases hs
    exact ⟨fun _ => rfl, fun b _ => rfl⟩
  | receive a =>
    simp only [Punch.step] at hs
    split at hs
    · cases hs
      exact ⟨fun _ => Punch.World.registered_forward _ _ _,
        fun b _ => congrFun (punched_forward _ _ _) b⟩
    · cases hs
      exact ⟨fun _ => rfl, fun b _ => rfl⟩
    · cases hs
  | punch a ok =>
    simp only [Punch.step] at hs
    split at hs
    · split at hs
      · cases hs
        refine ⟨fun _ => rfl, fun b hb => ?_⟩
        have hne : b ≠ a := by
          rintro rfl
          exact hb ok rfl
        exact Function.update_of_ne hne _ _
      · cases hs
        exact ⟨fun _ => rfl, fun b _ => rfl⟩
    · cases hs
  | punchDone a =>
    simp only [Punch.step] at hs
    split at hs
    · cases hs
      exact ⟨fun _ => rfl, fun b _ => rfl⟩
    · cases hs
  | dial a k j =>
    simp only [Punch.step] at hs
    split at hs
    · split at hs
      · split at hs
        · split at hs <;> cases hs <;> exact ⟨fun _ => rfl, fun b _ => rfl⟩
        · cases hs
      · cases hs
    · cases hs

/-- What `main` has registered stays. -/
theorem reach_registered (hw : (Punch.agents s).ReachWhile (fun _ x => settled x = true) w) :
    w.registered = fun a => [s.registered a] :=
  Machine.ReachWhile.invariant (M := Punch.agents s)
    (I := fun w => w.registered = fun a => [s.registered a]) rfl
    (fun _ _ _ _ hI hx hs => ((step_keeps hs).1 hx).trans hI) hw

theorem reach_unpunching {b : A} (hb : s.shared b = false) (hw : (Punch.agents s).Reach w) :
    w.punched b = [] := by
  refine Machine.ReachWhile.invariant (M := Punch.agents s) (I := fun w => w.punched b = [])
    rfl ?_ hw
  intro w x w' hr hI _ hs
  by_cases hx : ∃ ok, x = .punch b ok
  · obtain ⟨ok, rfl⟩ := hx
    have hs : Punch.step s w (.punch b ok) = some w' := hs
    simp only [Punch.step] at hs
    split at hs
    · rename_i hreader
      exact absurd hreader (not_punching (Punch.reach_inv hr) hb)
    · cases hs
  · rw [(step_keeps hs).2 b fun ok heq => hx ⟨ok, heq⟩]
    exact hI

end Settled

/-- **What agents dial is listened at.** -/
theorem dials_reach_listeners [DecidableEq A] (F : Fleet A) (hnet : F.host.net.Lawful)
    (hw : (Punch.agents F.setup).ReachWhile (fun _ x => settled x = true) w) :
    (∀ a b c, (b, c) ∈ w.dialled a → ∃ port ifaces srflx adv,
      (F.world b).listener = some port ∧
      (F.world b).localCandidates =
        toPBCandidates F.host.net (mainLocals (ε := String) ifaces port srflx adv) ∧
      c ∈ mainLocals (ε := String) ifaces port srflx adv) ∧
    ∀ b, (F.world b).listener = none →
      (∀ a c, (b, c) ∉ w.dialled a) ∧ (∀ a e, (b, e) ∉ w.punched a) ∧ w.punched b = [] := by
  have hinv := Punch.reach_inv hw.reach
  have hreg := reach_registered hw
  have hdials : ∀ a b c, (b, c) ∈ w.dialled a → ∃ port ifaces srflx adv,
      (F.world b).listener = some port ∧
      (F.world b).localCandidates =
        toPBCandidates F.host.net (mainLocals (ε := String) ifaces port srflx adv) ∧
      c ∈ mainLocals (ε := String) ifaces port srflx adv := by
    intro a b c hc
    obtain ⟨⟨cs, hcs, hmem⟩, -⟩ := hinv.dialled a (b, c) hc
    rw [hreg] at hcs
    rw [List.mem_singleton.mp hcs] at hmem
    obtain ⟨d, hwired⟩ := wired_of_run (F.up b).1 (F.up b).2
    by_cases hd : d = .shared
    · obtain ⟨port, ifaces, srflx, adv, hlistener, hlocals⟩ := hwired.listens hd
      have hmem : c ∈ fromPB F.host.net (F.world b).localCandidates := hmem
      rw [hlocals, fromPB_toPBCandidates hnet] at hmem
      exact ⟨port, ifaces, srflx, adv, hlistener, hlocals, hmem⟩
    · have hmem : c ∈ fromPB F.host.net (F.world b).localCandidates := hmem
      rw [(hwired.silent hd).2] at hmem
      cases hmem
  refine ⟨hdials, fun b hb => ⟨fun a c hc => ?_, fun a e he => ?_, ?_⟩⟩
  · obtain ⟨port, _, _, _, hlistener, _⟩ := hdials a b c hc
    rw [hb] at hlistener
    cases hlistener
  · obtain ⟨d, hwired⟩ := wired_of_run (F.up b).1 (F.up b).2
    have hd := hwired.ne_shared hb
    obtain ⟨cs, hcs, hmem⟩ := hinv.punched a (b, e) he
    rw [hreg] at hcs
    have hnone : F.setup.registered b = [] := (hwired.silent hd).2
    rw [List.mem_singleton.mp hcs, hnone] at hmem
    have hmem : e ∈ warmupPunch F.host.net true (toPB F.host.net (hostCandidates (F.ifaces b) 0)) :=
      hmem
    rw [warmupPunch_hosts] at hmem
    cases hmem
  · obtain ⟨d, hwired⟩ := wired_of_run (F.up b).1 (F.up b).2
    refine reach_unpunching (s := F.setup) ?_ hw.reach
    refine decide_eq_false fun hshared => ?_
    exact hwired.ne_shared hb (Option.some.inj (hwired.session.symm.trans hshared))

/-- An agent that is on UDP (`true`) and one that had to go over TCP. -/
def mixed : Fleet Bool where
  host := plainHost
  flags _ := bothFlags
  world a := if a then after overQUIC else after overTCP
  up a := by
    cases a
    · exact ⟨reach_overTCP, rfl⟩
    · exact ⟨reach_overQUIC, rfl⟩
  nat a _ := Punch.mappedTo a
  letsIn a := Punch.portRestricted fun _ => Punch.mappedTo a
  relay := ⟨.ofOctets 192 0 2 1, 7443⟩
  peerOf a id := if id = 7 then some (!a) else none
  ifaces _ := .ok []

/-- The agent on TCP promotes a stream. -/
def promotion : List (Punch.Act Bool) :=
  [.promote false 7, .receive true, .punchDone true, .receive false, .dial false 0 0]

/-- **TCP does not disable promotion.** The flag `--relay-tcp` is documented to do so, and `main`
does not pass it on to `tryPromote`. -/
theorem fallback_promotes :
    (after overTCP).session = some .tcp ∧
      ∃ w, (Punch.agents mixed.setup).ReachWhile (fun _ x => settled x = true) w ∧
        (w.dialled false).map (fun x => dialTarget x.2) =
          [some ⟨.ofOctets 198 51 100 1, 40001⟩] :=
  ⟨rfl, _, Machine.reachWhile_of_run (C := fun _ x => settled x) promotion rfl, rfl⟩

/-- Nobody dials it. -/
theorem dials_reach_listeners_mixed :
    ∃ w, (Punch.agents mixed.setup).ReachWhile (fun _ x => settled x = true) w ∧
      w.dialled false ≠ [] ∧ (mixed.world false).listener = none ∧
        ∀ a c, (false, c) ∉ w.dialled a := by
  have hrun := Machine.reachWhile_of_run (M := Punch.agents mixed.setup)
    (C := fun _ x => settled x) promotion rfl
  exact ⟨_, hrun, List.cons_ne_nil _ _, rfl,
    ((dials_reach_listeners mixed byteNetip_lawful hrun).2 false rfl).1⟩

end Fleet

end OutRelayAgent.Start
