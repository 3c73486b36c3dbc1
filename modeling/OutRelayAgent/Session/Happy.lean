import OutRelayAgent.Lib.Machine
import Mathlib.Algebra.Order.BigOperators.Group.Finset
import Mathlib.Data.List.Nodup
import Mathlib.Data.List.Perm.Subperm
import Mathlib.Logic.Function.Basic

/-!
# The race for the nearest relay

`DialAnyHappy` (`session.go:160-228`) runs one `DialWithDialer` (`session.go:243-282`) for each
address, each in a goroutine of its own, and collects their results from a channel with room for all
of them. The environment decides how each operation of each attempt ends and who moves next.

The channel is the list of everything sent to it, and the loop variable of the collecting loop is
the position up to which it has been received. An attempt dials once, so its number is also the name
of its connection and of its session.

* `first_success_returned`: every run is short, nothing but a return ends it, the session whose
  success arrived first is returned, or the first error if there is none, and only the connection of
  the returned session is open.
* `winner_returned_iff`: the loop receives all the results, also once it has a winner. It returns
  without further results only if there are none to come.

Premise: cancelling `raceCtx` makes `Dial` and `OpenStream` fail, if anything; it does not close a
connection that has been established.
-/

namespace OutRelayAgent.Happy

open Lib

section Model

/-- What `DialWithDialer` returns. -/
inductive Err (ε : Type)
  | dial (e : ε)
  /-- `session: open ctrl: %w` -/
  | openCtrl (e : ε)
  /-- `session: send HELLO: %w` -/
  | sendHello (e : ε)
  /-- `session: read HELLO_ACK: %w` -/
  | readHelloAck (e : ε)
  | unmarshal (e : ε)

/-- What `DialAnyHappy` returns. -/
inductive HappyErr (ε : Type)
  /-- `session: no relay addresses` -/
  | noAddresses
  /-- The error of `DialWithDialer`, as it is. -/
  | own (e : Err ε)
  /-- `session: all relay endpoints failed: %w` -/
  | allFailed (firstErr : Option (Err ε))

/-- The result of an attempt; its session has the attempt's number. -/
abbrev Result (ε : Type) := Except (Err ε) Unit

/-- Where an attempt is. -/
inductive Phase (ε : Type)
  /-- In `dialer.Dial`. -/
  | dialing
  /-- In `conn.OpenStream`. -/
  | opening
  /-- In `orp.WriteFrame`, with `HELLO`. -/
  | greeting
  /-- In `orp.ParseFrame`, which takes no context. -/
  | awaiting
  /-- In `orp.UnmarshalProto`. -/
  | decoding
  /-- Before the `conn.Close` of an error path. -/
  | closing (e : Err ε)
  /-- `DialWithDialer` has returned. -/
  | returned (r : Result ε)
  /-- The result is in the channel. -/
  | sent

inductive Conn
  | undialled
  | up
  | closed

/-- One operation of `DialWithDialer`, with its outcome. -/
def dialWithDialer {ε : Type} : Phase ε → Except ε Unit → Conn → Option (Phase ε × Conn)
  | .dialing, .ok _, _ => some (.opening, .up)
  | .dialing, .error e, k => some (.returned (.error (.dial e)), k)
  | .opening, .ok _, k => some (.greeting, k)
  | .opening, .error e, k => some (.closing (.openCtrl e), k)
  | .greeting, .ok _, k => some (.awaiting, k)
  | .greeting, .error e, k => some (.closing (.sendHello e), k)
  | .awaiting, .ok _, k => some (.decoding, k)
  | .awaiting, .error e, k => some (.closing (.readHelloAck e), k)
  | .decoding, .ok _, k => some (.returned (.ok ()), k)
  | .decoding, .error e, k => some (.closing (.unmarshal e), k)
  | .closing e, _, _ => some (.returned (.error e), .closed)
  | .returned _, _, _ => none
  | .sent, _, _ => none

structure Race (ε : Type) where
  phase : ℕ → Phase ε
  conns : ℕ → Conn
  /-- Everything that has been sent to `results`. -/
  results : List (ℕ × Result ε)
  /-- The loop variable `i`. -/
  received : ℕ
  winner : Option ℕ
  firstErr : Option (Err ε)
  /-- What `DialAnyHappy` has returned. -/
  returned : Option (Except (HappyErr ε) ℕ)

inductive Act (ε : Type)
  | dial (j : ℕ) (c : Except ε Unit)
  /-- `results <- attempt{..}` -/
  | send (j : ℕ)
  /-- The goroutine of `DialAnyHappy`. -/
  | main

variable {ε : Type}

/-- The body of the collecting loop. -/
def collect (s : Race ε) (j : ℕ) (r : Result ε) : Race ε :=
  match r, s.winner with
  | .ok _, none => { s with winner := some j }
  | .ok _, some _ => { s with conns := Function.update s.conns j .closed }
  | .error e, _ => { s with firstErr := s.firstErr <|> some e }

/-- What is returned after the loop. -/
def pick (winner : Option ℕ) (firstErr : Option (Err ε)) : Except (HappyErr ε) ℕ :=
  match winner with
  | some w => .ok w
  | none => .error (.allFailed firstErr)

/-- `return DialWithDialer(..)`, of the only attempt. -/
def own : Result ε → Except (HappyErr ε) ℕ
  | .ok _ => .ok 0
  | .error e => .error (.own e)

def dialAnyHappy (n : ℕ) (s : Race ε) : Option (Race ε) :=
  match n with
  | 0 => some { s with returned := some (.error .noAddresses) }
  | 1 =>
    match s.phase 0 with
    | .returned r => some { s with returned := some (own r) }
    | _ => none
  | _ =>
    if s.received < n then
      match s.results[s.received]? with
      | some (j, r) => some { collect s j r with received := s.received + 1 }
      | none => none
    else some { s with returned := some (pick s.winner s.firstErr) }

def step (n : ℕ) (s : Race ε) : Act ε → Option (Race ε)
  | .dial j c =>
    if j < n then
      match dialWithDialer (s.phase j) c (s.conns j) with
      | some (p, k) => some { s with
          phase := Function.update s.phase j p
          conns := Function.update s.conns j k }
      | none => none
    else none
  | .send j =>
    if j < n ∧ 2 ≤ n then
      match s.phase j with
      | .returned r => some { s with
          phase := Function.update s.phase j .sent
          results := s.results ++ [(j, r)] }
      | _ => none
    else none
  | .main =>
    match s.returned with
    | some _ => none
    | none => dialAnyHappy n s

/-- `DialAnyHappy(ctx, dialer, addrs, ..)` -/
def happy (ε : Type) {A : Type} (addrs : List A) : Machine (Race ε) (Act ε) where
  init := ⟨fun _ => .dialing, fun _ => .undialled, [], 0, none, none, none⟩
  step := step addrs.length

end Model

/-! ## What a step does -/

section Steps

variable {ε : Type} {n : ℕ} {s s' : Race ε}

inductive Moves (n : ℕ) (s : Race ε) : Act ε → Race ε → Prop
  | dial {j : ℕ} {c : Except ε Unit} {p : Phase ε} {k : Conn} (hj : j < n)
      (hd : dialWithDialer (s.phase j) c (s.conns j) = some (p, k)) :
      Moves n s (.dial j c) { s with
        phase := Function.update s.phase j p
        conns := Function.update s.conns j k }
  | send {j : ℕ} {r : Result ε} (hj : j < n) (hn : 2 ≤ n) (hp : s.phase j = .returned r) :
      Moves n s (.send j) { s with
        phase := Function.update s.phase j .sent
        results := s.results ++ [(j, r)] }
  | none (hr : s.returned = none) (hn : n = 0) :
      Moves n s .main { s with returned := some (.error .noAddresses) }
  | single {r : Result ε} (hr : s.returned = none) (hn : n = 1) (hp : s.phase 0 = .returned r) :
      Moves n s .main { s with returned := some (own r) }
  | collect {j : ℕ} {r : Result ε} (hr : s.returned = none) (hn : 2 ≤ n) (hi : s.received < n)
      (hres : s.results[s.received]? = some (j, r)) :
      Moves n s .main { collect s j r with received := s.received + 1 }
  | finish (hr : s.returned = none) (hn : 2 ≤ n) (hi : n ≤ s.received) :
      Moves n s .main { s with returned := some (pick s.winner s.firstErr) }

theorem moves_of_step {a : Act ε} (h : step n s a = some s') : Moves n s a s' := by
  cases a with
  | dial j c =>
    rw [step] at h
    split at h
    · rename_i hj
      split at h
      · rename_i hd
        cases h
        exact .dial hj hd
      · cases h
    · cases h
  | send j =>
    rw [step] at h
    split at h
    · rename_i hj
      split at h
      · rename_i hp
        cases h
        exact .send hj.1 hj.2 hp
      · cases h
    · cases h
  | main =>
    rw [step] at h
    split at h
    · cases h
    · rename_i hr
      unfold dialAnyHappy at h
      split at h
      · cases h
        exact .none hr rfl
      · split at h
        · rename_i hp
          cases h
          exact .single hr rfl hp
        · cases h
      · rename_i h0 h1
        have hn : 2 ≤ n := by
          have h0' : n ≠ 0 := h0
          have h1' : n ≠ 1 := h1
          omega
        split at h
        · rename_i hi
          split at h
          · rename_i hres
            cases h
            exact .collect hr hn hi hres
          · cases h
        · rename_i hi
          cases h
          exact .finish hr hn (Nat.le_of_not_lt hi)

end Steps

/-! ## The invariant -/

section Invariant

variable {ε : Type} {n : ℕ} {s s' : Race ε} {old fresh : List (ℕ × Result ε)}

/-- The attempt has an open connection. -/
def Phase.holds : Phase ε → Bool
  | .opening | .greeting | .awaiting | .decoding | .closing _ | .returned (.ok _) => true
  | .dialing | .returned (.error _) | .sent => false

/-- How many steps the attempt has before it, at most. -/
def Phase.rank : Phase ε → ℕ
  | .dialing => 7
  | .opening => 6
  | .greeting => 5
  | .awaiting => 4
  | .decoding => 3
  | .closing _ => 2
  | .returned _ => 1
  | .sent => 0

/-- One operation of an attempt: a connection that it has opened stays its own or is closed. -/
theorem dialWithDialer_spec {p p' : Phase ε} {c : Except ε Unit} {k k' : Conn}
    (h : dialWithDialer p c k = some (p', k')) :
    p ≠ .sent ∧ p' ≠ .sent ∧ (∀ r, p ≠ .returned r) ∧ p'.rank < p.rank ∧
      ((k = .up ↔ p.holds = true) → (k' = .up ↔ p'.holds = true)) := by
  cases p <;> cases c <;> cases h <;> simp [Phase.rank, Phase.holds]

/-- A call of `DialWithDialer` that has not returned can go on. -/
theorem dialWithDialer_enabled (p : Phase ε) (c : Except ε Unit) (k : Conn) :
    p = .sent ∨ (∃ r, p = .returned r) ∨ ∃ p' k', dialWithDialer p c k = some (p', k') := by
  cases p <;> cases c <;> simp [dialWithDialer]

def won (x : ℕ × Result ε) : Option ℕ :=
  match x.2 with
  | .ok _ => some x.1
  | .error _ => none

def lost (x : ℕ × Result ε) : Option (Err ε) :=
  match x.2 with
  | .ok _ => none
  | .error e => some e

theorem won_eq_some {x : ℕ × Result ε} {w : ℕ} : won x = some w ↔ x = (w, .ok ()) := by
  rcases x with ⟨j, e | u⟩ <;> simp [won]

theorem won_eq_none {x : ℕ × Result ε} : won x = none ↔ x.2 ≠ .ok () := by
  rcases x with ⟨j, e | u⟩ <;> simp [won]

/-- How `DialAnyHappy` can have returned. -/
def Returned (n : ℕ) (s : Race ε) (r : Except (HappyErr ε) ℕ) : Prop :=
  n = 0 ∨ (n = 1 ∧ ∃ res, s.phase 0 = .returned res ∧ r = own res) ∨
    (2 ≤ n ∧ n ≤ s.received ∧ r = pick s.winner s.firstErr)

/-- `old` are the results received, `fresh` those in the channel. -/
structure Inv (n : ℕ) (s : Race ε) (old fresh : List (ℕ × Result ε)) : Prop where
  results : s.results = old ++ fresh
  received : s.received = old.length
  single : n < 2 → s.results = []
  sent : ∀ j, s.phase j = .sent ↔ j ∈ s.results.map Prod.fst
  lt : ∀ j ∈ s.results.map Prod.fst, j < n
  nodup : (s.results.map Prod.fst).Nodup
  winner : s.winner = old.findSome? won
  firstErr : s.firstErr = old.findSome? lost
  held : ∀ j, s.phase j ≠ .sent → (s.conns j = .up ↔ (s.phase j).holds = true)
  fresh : ∀ x ∈ fresh, s.conns x.1 = .up ↔ x.2 = .ok ()
  old : ∀ x ∈ old, s.conns x.1 = .up ↔ s.winner = some x.1
  returned : ∀ r, s.returned = some r → Returned n s r

theorem Inv.mem_old (h : Inv n s old fresh) {x : ℕ × Result ε} (hx : x ∈ old) :
    x.1 ∈ s.results.map Prod.fst :=
  List.mem_map_of_mem (h.results ▸ List.mem_append_left _ hx)

theorem Inv.mem_fresh (h : Inv n s old fresh) {x : ℕ × Result ε} (hx : x ∈ fresh) :
    x.1 ∈ s.results.map Prod.fst :=
  List.mem_map_of_mem (h.results ▸ List.mem_append_right _ hx)

/-- The attempt whose result is received next is none of those received. -/
theorem Inv.ne_of_old {x y : ℕ × Result ε} (h : Inv n s old (y :: fresh)) (hx : x ∈ old) :
    x.1 ≠ y.1 := by
  have hnodup := h.nodup
  rw [h.results, List.map_append, List.nodup_append] at hnodup
  exact hnodup.2.2 x.1 (List.mem_map_of_mem hx) y.1 (List.mem_map_of_mem List.mem_cons_self)

theorem Inv.winner_mem (h : Inv n s old fresh) {w : ℕ} (hw : s.winner = some w) :
    (w, .ok ()) ∈ old := by
  rw [h.winner] at hw
  obtain ⟨x, hx, hwon⟩ := List.exists_of_findSome?_eq_some hw
  exact won_eq_some.mp hwon ▸ hx

theorem inv_dial (h : Inv n s old fresh) {j : ℕ} {c : Except ε Unit} {p : Phase ε} {k : Conn}
    (hj : j < n) (hd : dialWithDialer (s.phase j) c (s.conns j) = some (p, k)) :
    Inv n { s with
      phase := Function.update s.phase j p
      conns := Function.update s.conns j k } old fresh := by
  obtain ⟨hsent, hsent', hret, -, hholds⟩ := dialWithDialer_spec hd
  have hne : ∀ i ∈ s.results.map Prod.fst, i ≠ j := fun i hi hij =>
    hsent (hij ▸ (h.sent i).mpr hi)
  refine ⟨h.results, h.received, h.single, fun i => ?_, h.lt, h.nodup, h.winner, h.firstErr,
    fun i hi => ?_, fun x hx => ?_, fun x hx => ?_, fun r hr => ?_⟩
  · by_cases hij : i = j
    · subst hij
      simpa [hsent'] using fun hi : i ∈ s.results.map Prod.fst => hne i hi rfl
    · simpa [hij] using h.sent i
  · by_cases hij : i = j
    · subst hij
      simpa using hholds (h.held i hsent)
    · simp only [Function.update_of_ne hij] at hi ⊢
      exact h.held i hi
  · simpa [hne _ (h.mem_fresh hx)] using h.fresh x hx
  · simpa [hne _ (h.mem_old hx)] using h.old x hx
  · rcases h.returned r hr with h0 | ⟨h1, res, hres, hr⟩ | h2
    · omega
    · obtain rfl : j = 0 := by omega
      exact absurd hres (hret res)
    · exact .inr (.inr h2)

theorem inv_send (h : Inv n s old fresh) {j : ℕ} {r : Result ε} (hj : j < n) (hn : 2 ≤ n)
    (hp : s.phase j = .returned r) :
    Inv n { s with
      phase := Function.update s.phase j .sent
      results := s.results ++ [(j, r)] } old (fresh ++ [(j, r)]) := by
  have hfree : j ∉ s.results.map Prod.fst := by
    rw [← h.sent j, hp]
    nofun
  have hup : s.conns j = .up ↔ r = .ok () := by
    rw [h.held j (by rw [hp]; nofun), hp]
    rcases r with e | u <;> simp [Phase.holds]
  refine ⟨by simp [h.results], h.received, by omega, fun i => ?_, ?_, ?_, h.winner, h.firstErr,
    fun i hi => ?_, fun x hx => ?_, h.old, fun r' hr' => ?_⟩
  · by_cases hij : i = j
    · simp [hij]
    · simpa [hij] using h.sent i
  · intro i hi
    rw [List.map_append, List.mem_append] at hi
    rcases hi with hi | hi
    · exact h.lt i hi
    · simp only [List.map_cons, List.map_nil, List.mem_singleton] at hi
      exact hi ▸ hj
  · rw [List.map_append, List.nodup_append]
    refine ⟨h.nodup, by simp, fun i hi i' hi' heq => hfree ?_⟩
    simp only [List.map_cons, List.map_nil, List.mem_singleton] at hi'
    exact hi' ▸ heq ▸ hi
  · by_cases hij : i = j
    · simp [hij] at hi
    · simp only [Function.update_of_ne hij] at hi ⊢
      exact h.held i hi
  · rw [List.mem_append, List.mem_singleton] at hx
    rcases hx with hx | rfl
    · exact h.fresh x hx
    · exact hup
  · rcases h.returned r' hr' with h0 | ⟨h1, -⟩ | h2
    · omega
    · omega
    · exact .inr (.inr h2)

@[simp] theorem collect_phase (s : Race ε) (j : ℕ) (r : Result ε) :
    (collect s j r).phase = s.phase := by
  unfold collect
  split <;> rfl

@[simp] theorem collect_results (s : Race ε) (j : ℕ) (r : Result ε) :
    (collect s j r).results = s.results := by
  unfold collect
  split <;> rfl

@[simp] theorem collect_returned (s : Race ε) (j : ℕ) (r : Result ε) :
    (collect s j r).returned = s.returned := by
  unfold collect
  split <;> rfl

theorem collect_winner (s : Race ε) (j : ℕ) (r : Result ε) :
    (collect s j r).winner = (s.winner <|> won (j, r)) := by
  unfold collect won
  rcases r with e | u <;> cases s.winner <;> rfl

theorem collect_firstErr (s : Race ε) (j : ℕ) (r : Result ε) :
    (collect s j r).firstErr = (s.firstErr <|> lost (j, r)) := by
  unfold collect lost
  rcases r with e | u <;> cases s.winner <;> cases s.firstErr <;> rfl

/-- Only the connection of the result that is collected can change. -/
theorem collect_conns_of_ne (s : Race ε) {i j : ℕ} (r : Result ε) (hij : i ≠ j) :
    (collect s j r).conns i = s.conns i := by
  unfold collect
  split
  · rfl
  · exact Function.update_of_ne hij _ _
  · rfl

theorem inv_collect {j : ℕ} {r : Result ε} (h : Inv n s old ((j, r) :: fresh))
    (hr : s.returned = none) :
    Inv n { collect s j r with received := s.received + 1 } (old ++ [(j, r)]) fresh := by
  have hjr := h.fresh (j, r) List.mem_cons_self
  have hnew : ∀ x ∈ fresh, x.1 ≠ j := by
    have hnodup := h.nodup
    rw [h.results, List.map_append, List.nodup_append, List.map_cons, List.nodup_cons] at hnodup
    exact fun x hx hxj => hnodup.2.1.1 (List.mem_map.mpr ⟨x, hx, hxj⟩)
  refine ⟨by simp [h.results], by simp [h.received], by simpa using h.single, by simpa using h.sent,
    by simpa using h.lt, by simpa using h.nodup, ?_, ?_, fun i hi => ?_, fun x hx => ?_,
    fun x hx => ?_, by simp [hr]⟩
  · simp [collect_winner, h.winner, List.findSome?_append]
  · simp [collect_firstErr, h.firstErr, List.findSome?_append]
  · have hij : i ≠ j := by
      rintro rfl
      exact hi (by simpa using (h.sent i).mpr (h.mem_fresh List.mem_cons_self))
    simp only [collect_phase, collect_conns_of_ne s r hij] at hi ⊢
    exact h.held i hi
  · simpa [collect_conns_of_ne s r (hnew x hx)] using h.fresh x (List.mem_cons_of_mem _ hx)
  · rw [List.mem_append, List.mem_singleton] at hx
    rcases hx with hx | rfl
    · -- An earlier result: it is not the new winner.
      have hne : x.1 ≠ j := h.ne_of_old hx
      simp only [collect_conns_of_ne s r hne, h.old x hx, collect_winner]
      cases hw : s.winner with
      | some w => simp
      | none => rcases r with e | u <;> simp [won, hne.symm]
    · have hlost : s.winner ≠ some j := fun hw => h.ne_of_old (h.winner_mem hw) rfl
      rcases r with e | u
      · simpa [collect] using (iff_false_right hlost).mpr (by simpa using hjr)
      · cases hw : s.winner with
        | none => simpa [collect, hw] using hjr
        | some w =>
          have hwj : w ≠ j := fun hwj => hlost (hwj ▸ hw)
          simp [collect, hw, hwj]

theorem inv_return (h : Inv n s old fresh) {r : Except (HappyErr ε) ℕ} (hr : Returned n s r) :
    Inv n { s with returned := some r } old fresh :=
  ⟨h.results, h.received, h.single, h.sent, h.lt, h.nodup, h.winner, h.firstErr, h.held, h.fresh,
    h.old, fun _ hr' => Option.some.inj hr' ▸ hr⟩

theorem inv_moves {a : Act ε} (h : Inv n s old fresh) (hm : Moves n s a s') :
    ∃ old' fresh', Inv n s' old' fresh' := by
  cases hm with
  | dial hj hd => exact ⟨old, fresh, inv_dial h hj hd⟩
  | send hj hn hp => exact ⟨old, _, inv_send h hj hn hp⟩
  | none _ hn => exact ⟨old, fresh, inv_return h (.inl hn)⟩
  | single _ hn hp => exact ⟨old, fresh, inv_return h (.inr (.inl ⟨hn, _, hp, rfl⟩))⟩
  | @collect j r hr _ _ hres =>
    rw [h.results, h.received, List.getElem?_append_right (Nat.le_refl _), Nat.sub_self] at hres
    cases fresh with
    | nil => cases hres
    | cons x fresh =>
      obtain rfl : x = (j, r) := by simpa using hres
      exact ⟨_, fresh, inv_collect h hr⟩
  | finish _ hn hi => exact ⟨old, fresh, inv_return h (.inr (.inr ⟨hn, hi, rfl⟩))⟩

theorem inv_reach {A : Type} {addrs : List A} (hs : (happy ε addrs).Reach s) :
    ∃ old fresh, Inv addrs.length s old fresh := by
  refine Machine.Reach.invariant (I := fun s => ∃ old fresh, Inv addrs.length s old fresh)
    ⟨[], [], ?_⟩ ?_ hs
  · constructor <;> simp [happy, Phase.holds]
  · rintro s a s' ⟨old, fresh, h⟩ hst
    exact inv_moves h (moves_of_step hst)

end Invariant

/-! ## Every run ends with a return -/

section Ends

variable {ε : Type} {n : ℕ} {s s' : Race ε} {old fresh : List (ℕ × Result ε)}

/-- The steps that are left, at most. -/
def left (n : ℕ) (s : Race ε) : ℕ :=
  ∑ j ∈ Finset.range n, (s.phase j).rank + (n - s.received) + if s.returned.isSome then 0 else 1

theorem sum_rank_update_lt {f : ℕ → Phase ε} {j : ℕ} {p : Phase ε} (hj : j < n)
    (hlt : p.rank < (f j).rank) :
    ∑ i ∈ Finset.range n, (Function.update f j p i).rank < ∑ i ∈ Finset.range n, (f i).rank := by
  refine Finset.sum_lt_sum (fun i _ => ?_) ⟨j, Finset.mem_range.mpr hj, by simpa using hlt⟩
  by_cases hij : i = j
  · subst hij
    simpa using hlt.le
  · simp [hij]

theorem left_lt {a : Act ε} (hst : step n s a = some s') : left n s' < left n s := by
  unfold left
  cases moves_of_step hst with
  | dial hj hd =>
    have hlt := sum_rank_update_lt hj (dialWithDialer_spec hd).2.2.2.1
    dsimp only
    omega
  | @send j r hj hn hp =>
    have hlt := sum_rank_update_lt (f := s.phase) (p := .sent) hj (by rw [hp]; exact Nat.one_pos)
    dsimp only
    omega
  | none hr hn => simp [hr]
  | single hr hn hp => simp [hr]
  | collect hr hn hi hres =>
    simp only [collect_phase, collect_returned]
    omega
  | finish hr hn hi => simp [hr]

/-- When every attempt has sent its result, the channel has had them all. -/
theorem Inv.all_sent (h : Inv n s old fresh) (hall : ∀ j < n, s.phase j = .sent) :
    n ≤ s.results.length := by
  have hsub : List.range n ⊆ s.results.map Prod.fst := fun j hj =>
    (h.sent j).mp (hall j (List.mem_range.mp hj))
  simpa using (List.nodup_range.subperm hsub).length_le

/-- What has all been received came from all the attempts. -/
theorem Inv.perm_range (h : Inv n s old fresh) (hn : n ≤ s.received) :
    fresh = [] ∧ (old.map Prod.fst).Perm (List.range n) := by
  have hsub : s.results.map Prod.fst ⊆ List.range n := fun j hj => List.mem_range.mpr (h.lt j hj)
  have hlen := (h.nodup.subperm hsub).length_le
  have hresults := h.results
  have hreceived := h.received
  rw [List.length_map, List.length_range, hresults, List.length_append] at hlen
  have hfresh : fresh = [] := List.eq_nil_of_length_eq_zero (by omega)
  rw [hfresh, List.append_nil] at hresults
  refine ⟨hfresh, ?_⟩
  rw [← hresults]
  refine (h.nodup.subperm hsub).perm_of_length_le ?_
  rw [List.length_map, List.length_range, hresults]
  omega

/-- The loop goes on while there are results, and returns after the last. -/
theorem main_enabled (hn : 2 ≤ n) (hr : s.returned = none) (hlen : n ≤ s.results.length) :
    ∃ s', step n s .main = some s' := by
  obtain ⟨m, rfl⟩ := Nat.exists_eq_add_of_le' hn
  by_cases hi : s.received < m + 2
  · have hres := List.getElem?_eq_getElem (Nat.lt_of_lt_of_le hi hlen)
    exact ⟨_, by simp only [step, hr, dialAnyHappy, if_pos hi, hres]; rfl⟩
  · exact ⟨_, by simp only [step, hr, dialAnyHappy, if_neg hi]; rfl⟩

/-- Some action is possible until `DialAnyHappy` has returned. -/
theorem Inv.enabled (h : Inv n s old fresh) (hr : s.returned = none) :
    ∃ a s', step n s a = some s' := by
  -- An attempt that has not sent its result can move.
  have hmoves : ∀ j < n, s.phase j ≠ .sent → (2 ≤ n ∨ ∀ r, s.phase j ≠ .returned r) →
      ∃ a s', step n s a = some s' := by
    intro j hj hsent hor
    rcases dialWithDialer_enabled (s.phase j) (.ok ()) (s.conns j) with hp | ⟨r, hp⟩ | ⟨p, k, hd⟩
    · exact absurd hp hsent
    · have hn : 2 ≤ n := hor.resolve_right fun hnot => hnot r hp
      exact ⟨.send j, _, by rw [step, if_pos ⟨hj, hn⟩, hp]⟩
    · exact ⟨.dial j (.ok ()), _, by rw [step, if_pos hj, hd]⟩
  rcases Nat.lt_or_ge n 2 with hn | hn
  · obtain rfl | rfl : n = 0 ∨ n = 1 := by omega
    · exact ⟨.main, _, by rw [step, hr]; rfl⟩
    · by_cases hp : ∃ r, s.phase 0 = .returned r
      · obtain ⟨r, hp⟩ := hp
        exact ⟨.main, { s with returned := some (own r) }, by simp [step, hr, dialAnyHappy, hp]⟩
      · refine hmoves 0 Nat.one_pos ?_ (.inr fun r hr => hp ⟨r, hr⟩)
        rw [Ne, h.sent 0, h.single Nat.one_lt_two]
        exact List.not_mem_nil
  · by_cases hall : ∀ j < n, s.phase j = .sent
    · exact ⟨.main, main_enabled hn hr (h.all_sent hall)⟩
    · push Not at hall
      obtain ⟨j, hj, hsent⟩ := hall
      exact hmoves j hj hsent (.inl hn)

end Ends

/-! ## What is returned -/

section Choice

variable {ε : Type} {n : ℕ} {s s' : Race ε} {old fresh : List (ℕ × Result ε)}

/-- The results in the order in which they arrive; the only attempt's is not sent anywhere. -/
def arrivals (n : ℕ) (s : Race ε) : List (ℕ × Result ε) :=
  match n, s.phase 0 with
  | 1, .returned r => [(0, r)]
  | _, _ => s.results

/-- `r` is the first success among the arrivals, or the first error if there is none. -/
structure Chosen (n : ℕ) (arrived : List (ℕ × Result ε)) (r : Except (HappyErr ε) ℕ) : Prop where
  all : (arrived.map Prod.fst).Perm (List.range n)
  success : ∀ w, r = .ok w ↔
    ∃ l₁ l₂, arrived = l₁ ++ (w, .ok ()) :: l₂ ∧ ∀ x ∈ l₁, x.2 ≠ .ok ()
  failure : ∀ e, r = .error e ↔ (∀ x ∈ arrived, x.2 ≠ .ok ()) ∧
    ∃ j e₁ l, arrived = (j, .error e₁) :: l ∧ e = if n = 1 then .own e₁ else .allFailed (some e₁)

/-- The first success. -/
theorem findSome?_won {l : List (ℕ × Result ε)} {w : ℕ} :
    l.findSome? won = some w ↔ ∃ l₁ l₂, l = l₁ ++ (w, .ok ()) :: l₂ ∧ ∀ x ∈ l₁, x.2 ≠ .ok () := by
  rw [List.findSome?_eq_some_iff]
  simp only [won_eq_some, won_eq_none]
  constructor
  · rintro ⟨l₁, x, l₂, hl, rfl, hl₁⟩
    exact ⟨l₁, l₂, hl, hl₁⟩
  · rintro ⟨l₁, l₂, hl, hl₁⟩
    exact ⟨l₁, _, l₂, hl, rfl, hl₁⟩

theorem chosen_own (r : Result ε) : Chosen 1 [(0, r)] (own r) := by
  refine ⟨by simp, fun w => ?_, fun e => ?_⟩
  · rw [← findSome?_won]
    rcases r with e | u <;> simp [own, won]
  · rcases r with e' | u <;> simp [own, eq_comm]

theorem chosen_pick {arrived : List (ℕ × Result ε)} (hn : 2 ≤ n)
    (hall : (arrived.map Prod.fst).Perm (List.range n)) :
    Chosen n arrived (pick (arrived.findSome? won) (arrived.findSome? lost)) := by
  refine ⟨hall, fun w => ?_, fun e => ?_⟩
  · rw [← findSome?_won]
    cases arrived.findSome? won <;> simp [pick]
  · have hfailed : (∀ x ∈ arrived, x.2 ≠ .ok ()) ↔ arrived.findSome? won = none := by
      rw [List.findSome?_eq_none_iff]
      simp only [won_eq_none]
    have hn1 : n ≠ 1 := by omega
    simp only [hfailed, if_neg hn1]
    cases hw : arrived.findSome? won with
    | some w => simp [pick]
    | none =>
      rcases arrived with _ | ⟨⟨j, e₁ | u⟩, l⟩
      · have hlen := hall.length_eq
        rw [List.length_range] at hlen
        exact absurd hlen.symm (by simp; omega)
      · have hfirst : List.findSome? lost ((j, .error e₁) :: l) = some e₁ := rfl
        simp [pick, hfirst, eq_comm]
      · cases hw

/-- At the return only the connection of the returned session is open. -/
theorem Inv.up_iff (h : Inv n s old fresh) (hn : 0 < n) {r : Except (HappyErr ε) ℕ}
    (hr : s.returned = some r) {j : ℕ} (hj : j < n) : s.conns j = .up ↔ r = .ok j := by
  rcases h.returned r hr with h0 | ⟨rfl, res, hp, rfl⟩ | ⟨hn, hi, rfl⟩
  · omega
  · obtain rfl : j = 0 := by omega
    rw [h.held 0 (by rw [hp]; nofun), hp]
    rcases res with e | u <;> simp [own, Phase.holds]
  · obtain ⟨-, hperm⟩ := h.perm_range hi
    obtain ⟨x, hx, rfl⟩ := List.mem_map.mp (hperm.mem_iff.mpr (List.mem_range.mpr hj))
    rw [h.old x hx]
    cases s.winner <;> simp [pick]

theorem Inv.chosen (h : Inv n s old fresh) (hn : 0 < n) {r : Except (HappyErr ε) ℕ}
    (hr : s.returned = some r) : Chosen n (arrivals n s) r := by
  rcases h.returned r hr with h0 | ⟨rfl, res, hp, rfl⟩ | ⟨hn, hi, rfl⟩
  · omega
  · have harr : arrivals 1 s = [(0, res)] := by simp [arrivals, hp]
    exact harr ▸ chosen_own res
  · obtain ⟨hfresh, hperm⟩ := h.perm_range hi
    have harr : arrivals n s = old := by
      obtain ⟨m, rfl⟩ := Nat.exists_eq_add_of_le' hn
      simp [arrivals, h.results, hfresh]
    rw [harr, h.winner, h.firstErr]
    exact chosen_pick hn hperm

/-- **The race.** Every run is short, only a return ends it, and what is returned is the session
whose success arrived first, or the first error. No other connection is open then. -/
theorem first_success_returned {A : Type} (addrs : List A) (hne : addrs ≠ []) :
    (∀ as s, (happy ε addrs).run (happy ε addrs).init as = some s →
      as.length ≤ 8 * addrs.length + 1) ∧
      ∀ s, (happy ε addrs).Reach s →
        ((∀ a, (happy ε addrs).step s a = none) → ∃ r, s.returned = some r) ∧
        ∀ r, s.returned = some r →
          Chosen addrs.length (arrivals addrs.length s) r ∧
            ∀ j < addrs.length, s.conns j = .up ↔ r = .ok j := by
  have hn : 0 < addrs.length := List.length_pos_iff.mpr hne
  refine ⟨fun as s hrun => ?_, fun s hs => ?_⟩
  · have hlen := Machine.run_length_le (left addrs.length) (fun _ _ _ => left_lt) as hrun
    have hinit : left addrs.length (happy ε addrs).init = 8 * addrs.length + 1 := by
      simp only [left, happy, Phase.rank, Finset.sum_const, Finset.card_range]
      simp
      omega
    omega
  · obtain ⟨old, fresh, h⟩ := inv_reach hs
    refine ⟨fun hterm => ?_, fun r hr => ⟨h.chosen hn hr, fun j hj => h.up_iff hn hr hj⟩⟩
    rw [← Option.ne_none_iff_exists']
    intro hr
    obtain ⟨a, s', hst⟩ := h.enabled hr
    exact Option.some_ne_none s' (hst.symm.trans (hterm a))

/-- Two relays, and the second one answers first. -/
theorem second_relay_returned :
    ∃ s, (happy Unit ["a", "b"]).Reach s ∧ s.returned = some (.ok 1) ∧
      s.conns 0 ≠ .up ∧ s.conns 1 = .up := by
  obtain ⟨s, hs, hr⟩ : ∃ s, (happy Unit ["a", "b"]).Reach s ∧ s.returned = some (.ok 1) := by
    refine ⟨_, Machine.reach_of_run (M := happy Unit ["a", "b"])
      [.dial 0 (.ok ()), .dial 1 (.ok ()), .dial 1 (.ok ()), .dial 1 (.ok ()), .dial 1 (.ok ()),
        .dial 1 (.ok ()), .send 1, .main, .dial 0 (.error ()), .dial 0 (.ok ()), .send 0, .main,
        .main] rfl, rfl⟩
  have h := ((first_success_returned ["a", "b"] (by simp)).2 s hs).2 _ hr
  refine ⟨s, hs, hr, ?_, (h.2 1 (by decide)).mpr rfl⟩
  rw [Ne, h.2 0 (by decide)]
  simp

end Choice

/-! ## A relay that does not answer -/

section Stuck

variable {ε : Type} {n : ℕ} {s s' : Race ε} {old fresh : List (ℕ × Result ε)}

theorem moves_unsent {a : Act ε} {j : ℕ} (hm : Moves n s a s') (ha : a ≠ .send j)
    (hp : s.phase j ≠ .sent) : s'.phase j ≠ .sent := by
  cases hm with
  | @dial i c p k hi hd =>
    by_cases hij : j = i
    · subst hij
      simpa using (dialWithDialer_spec hd).2.1
    · simpa [hij] using hp
  | @send i r hi hn hr =>
    have hij : j ≠ i := fun hij => ha (hij ▸ rfl)
    simpa [hij] using hp
  | collect => simpa using hp
  | _ => exact hp

/-- `DialAnyHappy` does not return before every attempt has sent its result. -/
theorem Inv.all_sent_of_returned (h : Inv n s old fresh) (hn : 2 ≤ n) {r : Except (HappyErr ε) ℕ}
    (hr : s.returned = some r) {j : ℕ} (hj : j < n) : s.phase j = .sent := by
  rcases h.returned r hr with h0 | ⟨h1, -⟩ | ⟨-, hi, -⟩
  · omega
  · omega
  · obtain ⟨-, hperm⟩ := h.perm_range hi
    obtain ⟨x, hx, rfl⟩ := List.mem_map.mp (hperm.mem_iff.mpr (List.mem_range.mpr hj))
    exact (h.sent x.1).mpr (h.mem_old hx)

/-- As long as one attempt has not sent its result, nothing the others do ends the race. -/
theorem not_returned_of_unsent {A : Type} {addrs : List A} (hn : 2 ≤ addrs.length) {j : ℕ}
    (hj : j < addrs.length) (as : List (Act ε)) (has : ∀ a ∈ as, a ≠ .send j)
    (hs : (happy ε addrs).Reach s) (hp : s.phase j ≠ .sent)
    (hrun : (happy ε addrs).run s as = some s') : s'.returned = none := by
  induction as generalizing s with
  | nil =>
    cases hrun
    obtain ⟨old, fresh, h⟩ := inv_reach hs
    refine Option.eq_none_iff_forall_ne_some.mpr fun r hr => ?_
    exact hp (h.all_sent_of_returned hn hr hj)
  | cons a as ih =>
    obtain ⟨t, hst, hrun⟩ := Machine.run_cons.mp hrun
    have hp' := moves_unsent (moves_of_step hst) (has a List.mem_cons_self) hp
    exact ih (fun b hb => has b (List.mem_cons_of_mem _ hb)) (hs.step hst) hp' hrun

theorem main_keeps {w : ℕ} (hm : Moves n s .main s') (hw : s.winner = some w) :
    s'.phase = s.phase ∧ s'.winner = some w := by
  cases hm with
  | collect => simp [collect_winner, hw]
  | _ => exact ⟨rfl, hw⟩

/-- Once all the results are there, the loop alone ends the race. -/
theorem main_returns {A : Type} {addrs : List A} (hn : 2 ≤ addrs.length) {w : ℕ}
    (hs : (happy ε addrs).Reach s) (hw : s.winner = some w)
    (hall : ∀ j < addrs.length, s.phase j = .sent) :
    ∃ as s', (∀ a ∈ as, a = .main) ∧ (happy ε addrs).run s as = some s' ∧
      s'.returned = some (.ok w) := by
  -- By induction on the steps that are left.
  induction hk : left addrs.length s using Nat.strong_induction_on generalizing s with
  | _ k ih =>
    obtain ⟨old, fresh, h⟩ := inv_reach hs
    cases hr : s.returned with
    | some r =>
      refine ⟨[], s, by simp, rfl, ?_⟩
      rcases h.returned r hr with h0 | ⟨h1, -⟩ | ⟨-, -, hpick⟩
      · omega
      · omega
      · rw [hr, hpick, hw, pick]
    | none =>
      obtain ⟨t, hst⟩ := main_enabled hn hr (h.all_sent hall)
      obtain ⟨hphase, hw'⟩ := main_keeps (moves_of_step hst) hw
      obtain ⟨as, s', has, hrun, hr'⟩ :=
        ih _ (hk ▸ left_lt hst) (hs.step (a := .main) hst) hw' (by rwa [hphase]) rfl
      exact ⟨.main :: as, s', by simpa using has, Machine.run_cons.mpr ⟨t, hst, hrun⟩, hr'⟩

/-- **One relay can block the race.** The winner is returned without a further result exactly if
all the others have sent theirs. -/
theorem winner_returned_iff {A : Type} (addrs : List A) (hn : 2 ≤ addrs.length) (s : Race ε)
    (hs : (happy ε addrs).Reach s) (w : ℕ) (hw : s.winner = some w) :
    (∃ as s', (∀ a ∈ as, ∀ j, a ≠ .send j) ∧ (happy ε addrs).run s as = some s' ∧
      s'.returned = some (.ok w)) ↔ ∀ j < addrs.length, j ≠ w → s.phase j = .sent := by
  constructor
  · rintro ⟨as, s', has, hrun, hr⟩ j hj -
    by_contra hp
    have hnone := not_returned_of_unsent hn hj as (fun a ha => has a ha j) hs hp hrun
    exact Option.some_ne_none _ (hr.symm.trans hnone)
  · intro hothers
    obtain ⟨old, fresh, h⟩ := inv_reach hs
    have hall : ∀ j < addrs.length, s.phase j = .sent := by
      intro j hj
      by_cases hjw : j = w
      · exact hjw ▸ (h.sent w).mpr (h.mem_old (h.winner_mem hw))
      · exact hothers j hj hjw
    obtain ⟨as, s', has, hrun, hr⟩ := main_returns hn hs hw hall
    exact ⟨as, s', fun a ha j => by rw [has a ha]; nofun, hrun, hr⟩

/-- The second relay has failed before the first one answers. -/
theorem failed_relay_no_block :
    ∃ s, (happy Unit ["a", "b"]).Reach s ∧ s.returned = none ∧ ∃ as s',
      (∀ a ∈ as, ∀ j, a ≠ .send j) ∧ (happy Unit ["a", "b"]).run s as = some s' ∧
        s'.returned = some (.ok 0) := by
  obtain ⟨s, hs, hr, hw, hp⟩ : ∃ s, (happy Unit ["a", "b"]).Reach s ∧ s.returned = none ∧
      s.winner = some 0 ∧ s.phase 1 = .sent :=
    ⟨_, Machine.reach_of_run (M := happy Unit ["a", "b"])
      [.dial 1 (.error ()), .send 1, .dial 0 (.ok ()), .dial 0 (.ok ()), .dial 0 (.ok ()),
        .dial 0 (.ok ()), .dial 0 (.ok ()), .send 0, .main, .main] rfl, rfl, rfl, rfl⟩
  refine ⟨s, hs, hr, (winner_returned_iff ["a", "b"] (by simp) s hs 0 hw).mpr ?_⟩
  intro j hj hne
  obtain rfl : j = 1 := by simp at hj; omega
  exact hp

/-- The first relay has answered, and the second one has taken `HELLO` and says nothing. -/
theorem silent_relay_blocks :
    ∃ s, (happy Unit ["a", "b"]).Reach s ∧ s.winner = some 0 ∧ s.phase 1 = .awaiting ∧
      ∀ as s', (∀ a ∈ as, a ≠ .send 1) → (happy Unit ["a", "b"]).run s as = some s' →
        s'.returned = none := by
  obtain ⟨s, hs, hw, hp⟩ : ∃ s, (happy Unit ["a", "b"]).Reach s ∧ s.winner = some 0 ∧
      s.phase 1 = .awaiting :=
    ⟨_, Machine.reach_of_run (M := happy Unit ["a", "b"])
      [.dial 1 (.ok ()), .dial 1 (.ok ()), .dial 1 (.ok ()), .dial 0 (.ok ()), .dial 0 (.ok ()),
        .dial 0 (.ok ()), .dial 0 (.ok ()), .dial 0 (.ok ()), .send 0, .main] rfl, rfl, rfl⟩
  exact ⟨s, hs, hw, hp, fun as s' has hrun =>
    not_returned_of_unsent (by simp) (by simp) as has hs (by rw [hp]; nofun) hrun⟩

end Stuck

end OutRelayAgent.Happy
