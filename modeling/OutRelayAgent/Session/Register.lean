import OutRelayAgent.Session.Attempts

/-!
# Registrations after a reconnect

`Expose` enters the handler in `s.handlers`, and then sends `REGISTER` with the name and the local
address and waits for the reply; a failure leaves the handler where it is (`session.go:289-308`).
`Reconnect` "replays REGISTER for every previously exposed service" (`session.go:692-701`), which it
does from the keys of `s.handlers`, with the name alone (`session.go:763-782`). So a service loses
its local address, and one whose `Expose` failed is registered.

* `registered_after_reconnect`: what is registered when `Reconnect` returns `nil` is every name
  `Expose` was ever called with, and the empty address.
* `registrations_restored_iff`: that is what the successful calls of `Expose` have registered,
  exactly when each name has such a call and the last one of it had the empty address.
* `loses_address`: a service that has an address, and one whose `Expose` failed.
-/

namespace OutRelayAgent.Attempts

open Lib
open Session (effect)

variable {ID N H : Type} [DecidableEq ID] [DecidableEq N]

/-- What is registered on the current connection is what the last successful `Expose` of each name
has registered, and a service without one has no handler. -/
structure Restored (w : World ID N H) : Prop where
  pairs : ∀ name addr, (name, addr) ∈ w.registered ↔ w.succeeded name = some addr
  handlers : ∀ name, name ∈ w.handlers → w.succeeded name ≠ none

/-! ## `s.handlers` has the names `Expose` was called with -/

structure Names (w : World ID N H) : Prop where
  handlers : ∀ name, name ∈ w.handlers ↔ name ∈ w.calls
  exposing : ∀ x name addr, w.phase = .exposing x name addr → name ∈ w.calls
  succeeded : ∀ name, w.succeeded name ≠ none → name ∈ w.calls

variable {w w' : World ID N H} {ph : Phase N}

theorem names_moves (h : Names w) (hp : w.phase = ph) (hm : Moves w ph w') : Names w' := by
  cases hm with
  | registers | acked =>
    have hcall := h.exposing _ _ _ hp
    refine ⟨h.handlers, fun x name addr hx => ?_, h.succeeded⟩
    cases hx
    exact hcall
  | @exposes name addr =>
    refine ⟨h.handlers, nofun, fun n hn => ?_⟩
    rcases eq_or_ne n name with rfl | hne
    · exact h.exposing _ _ _ hp
    · exact h.succeeded n (by simpa [hne] using hn)
  | _ => exact ⟨h.handlers, nofun, h.succeeded⟩

theorem reach_names [Inhabited ID] (h : (machine ID N H).Reach w) : Names w := by
  refine Machine.Reach.invariant (M := machine ID N H) (I := Names)
    ⟨fun name => ?_, fun _ _ _ hx => (by cases hx), fun name hn => absurd rfl hn⟩ ?_ h
  · simp [machine]
  intro w a w' hw hst
  obtain ⟨-, rfl⟩ | ⟨-, addr, rest, rfl⟩ | ⟨-, name, addr, f, rfl⟩ | hm | ⟨e, -, -, rfl⟩ :=
    step_cases hst
  · exact ⟨hw.handlers, fun _ _ _ hx => (by cases hx), hw.succeeded⟩
  · exact ⟨hw.handlers, fun _ _ _ hx => (by cases hx), hw.succeeded⟩
  · refine ⟨fun n => ?_, fun x n a hx => ?_, fun n hn => List.mem_cons_of_mem _ (hw.succeeded n hn)⟩
    · simp [hw.handlers]
    · cases hx
      exact List.mem_cons_self
  · exact names_moves hw rfl hm
  · exact ⟨hw.handlers, hw.exposing, hw.succeeded⟩

/-! ## The replay -/

/-- The names of the services to replay are those of `s.handlers`, some done and some left. -/
def Replayed (w : World ID N H) : Phase N → Prop
  | .exposed => w.registered = []
  | .replay .write ns =>
    ∃ done, (done ++ ns).Perm w.handlers.keys ∧ w.registered = done.map (·, "")
  | .replay _ [] => False
  | .replay _ (name :: ns) =>
    ∃ done, (done ++ name :: ns).Perm w.handlers.keys ∧
      w.registered = (done ++ [name]).map (·, "")
  | .snapshot | .resumeLoop _ | .resuming _ _ _ | .drop _ _ | .dropFound _ _ _ | .returned none =>
    ∀ name addr, (name, addr) ∈ w.registered ↔ name ∈ w.handlers ∧ addr = ""
  | _ => True

theorem replayed_moves (h : Replayed w ph) (hm : Moves w ph w') : Replayed w' w'.phase := by
  cases hm with
  | swaps => rfl
  | iterates hns => exact ⟨[], hns, h⟩
  | replayEnds =>
    obtain ⟨done, hperm, hreg⟩ := h
    intro name addr
    have hkeys : name ∈ done ↔ name ∈ w.handlers := by
      rw [AList.mem_keys, ← hperm.mem_iff, List.append_nil]
    show (name, addr) ∈ w.registered ↔ _
    rw [hreg, ← hkeys]
    simp [eq_comm]
  | replays =>
    obtain ⟨done, hperm, hreg⟩ := h
    exact ⟨done, hperm, by simp [hreg]⟩
  | replayAcked => exact h
  | replayed =>
    obtain ⟨done, hperm, hreg⟩ := h
    exact ⟨done ++ [_], by simpa using hperm, hreg⟩
  | snapshots | resumeEnds | opens | unopened | resumes | unresumed | drops | marks => exact h
  | _ => trivial

theorem reach_replayed [Inhabited ID] (h : (machine ID N H).Reach w) : Replayed w w.phase := by
  refine Machine.Reach.invariant (M := machine ID N H) (I := fun w => Replayed w w.phase)
    trivial ?_ h
  intro w a w' hw hst
  obtain ⟨-, rfl⟩ | ⟨-, addr, rest, rfl⟩ | ⟨-, n, a, f, rfl⟩ | hm | ⟨e, -, -, rfl⟩ :=
    step_cases hst
  · trivial
  · trivial
  · trivial
  · exact replayed_moves hw hm
  · exact hw

/-- After a `Reconnect` that returned `nil`, every name `Expose` was ever called with is registered,
with the empty address. -/
theorem registered_after_reconnect [Inhabited ID] (h : (machine ID N H).Reach w)
    (hp : w.phase = .returned none) (name : N) (addr : String) :
    (name, addr) ∈ w.registered ↔ name ∈ w.calls ∧ addr = "" := by
  have hrep := reach_replayed h
  rw [hp] at hrep
  rw [hrep name addr, (reach_names h).handlers]

/-! ## The results -/

/-- **When registrations are restored.** After a `Reconnect` that returned `nil`, exactly when each
name `Expose` was called with has a call that returned `nil`, the last such call with the empty
address. -/
theorem registrations_restored_iff [Inhabited ID] (h : (machine ID N H).Reach w)
    (hp : w.phase = .returned none) :
    Restored w ↔ ∀ name ∈ w.calls, w.succeeded name = some "" := by
  have hnames := reach_names h
  have hreg := registered_after_reconnect h hp
  constructor
  · intro hres name hname
    exact (hres.pairs name "").mp ((hreg name "").mpr ⟨hname, rfl⟩)
  · intro hall
    refine ⟨fun name addr => ?_, fun name hname => ?_⟩
    · rw [hreg]
      constructor
      · rintro ⟨hname, rfl⟩
        exact hall name hname
      · intro hsucc
        have hname := hnames.succeeded name (by simp [hsucc])
        have hempty := hall name hname
        rw [hsucc] at hempty
        exact ⟨hname, Option.some.inj hempty⟩
    · simp [hall name ((hnames.handlers name).mp hname)]

/-- A `Reconnect` with one address, up to the `REGISTER` replay. -/
def reaches : List (Act ℕ ℕ ℕ) :=
  [.reconnect ["relay"], .step .ok, .step .ok, .step .ok, .step .ok, .step .ok, .step .ok]

/-- A service without a local address is restored. -/
theorem registrations_restored_iff_empty :
    ∃ w, (machine ℕ ℕ ℕ).Reach w ∧ w.phase = .returned none ∧ w.registered = [(7, "")] ∧
      Restored w := by
  obtain ⟨w, hrun, hphase, hreg, hcalls, hsucc⟩ : ∃ w, (machine ℕ ℕ ℕ).Reach w ∧
      w.phase = .returned none ∧ w.registered = [(7, "")] ∧ w.calls = [7] ∧
      w.succeeded 7 = some "" :=
    ⟨_, Machine.reach_of_run (M := machine ℕ ℕ ℕ)
      ([.expose 7 "" 0, .step .ok, .step .ok, .step .ok] ++ reaches ++
        [.step (.names [7]), .step .ok, .step .ok, .step .ok, .step .ok, .step (.order []),
          .step .ok]) rfl, rfl, rfl, rfl, rfl⟩
  refine ⟨w, hrun, hphase, hreg, (registrations_restored_iff hrun hphase).mpr ?_⟩
  rw [hcalls]
  simpa using hsucc

/-- **A lost address and a service that was never exposed.** `Expose` of the service 7 at
`127.0.0.1:80` returned `nil`, and that of the service 8 failed; after `Reconnect`, both are
registered, without an address. -/
theorem loses_address :
    ∃ w, (machine ℕ ℕ ℕ).Reach w ∧ w.phase = .returned none ∧
      w.succeeded 7 = some "127.0.0.1:80" ∧ w.succeeded 8 = none ∧
      w.registered = [(7, ""), (8, "")] ∧ w.handlers.keys = [8, 7] :=
  ⟨_, Machine.reach_of_run (M := machine ℕ ℕ ℕ)
    ([.expose 7 "127.0.0.1:80" 0, .step .ok, .step .ok, .step .ok, .expose 8 "127.0.0.1:81" 1,
      .step .err] ++ reaches ++
      [.step (.names [7, 8]), .step .ok, .step .ok, .step .ok, .step .ok, .step .ok,
        .step .ok, .step .ok, .step (.order []), .step .ok]) rfl, rfl, rfl, rfl, rfl, rfl⟩

end OutRelayAgent.Attempts
