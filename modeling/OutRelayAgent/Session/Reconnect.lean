import OutRelayAgent.Session.Close

/-!
# Which streams a `Reconnect` touches

`Reconnect` closes the connection, dials another, registers the services again, and then replays
`STREAM_RESUME` for the wrappers `ActiveStreams()` returned, dropping those whose exchange failed
(`session.go:701-797`). The snapshot is taken after the new connection is in place, and nothing in
it says which connection carries a stream.

* `reconnect_touches_snapshot`: in every interleaving, a `Reconnect` leaves everything as it is up
  to its snapshot; after it, whatever the exchanges return and whatever other goroutines do, it
  abandons, removes or moves no wrapper whose id was not in `s.streams` at the snapshot.
* `reconnect_drops_new`: the streams it does touch are not only those of the connection it closed. A
  stream dialled on the new connection before the snapshot is replayed like the others, and lost
  when the exchange fails.
-/

namespace OutRelayAgent.Session

open Lib

variable {ID : Type}

/-- A `Reconnect` that has not looked at the streams yet. -/
def Task.preparing : Task ID → Bool
  | .reconnect | .reconnectDial | .reconnectSwap _ | .reconnectRegister | .reconnectSnapshot => true
  | _ => false

/-- What a `Reconnect` holds while it replays the streams: the snapshot, the wrappers still to do,
and what `forgetStream` found under the id of the current one. -/
structure Replay where
  snap : List Ref
  todo : List Ref
  found : Option Ref

def Task.replay : Task ID → Option Replay
  | .reconnectLoop snap rest => some ⟨snap, rest, none⟩
  | .reconnectResume snap w rest _ | .reconnectDrop snap w rest => some ⟨snap, w :: rest, none⟩
  | .reconnectFound snap w rest found => some ⟨snap, w :: rest, found⟩
  | _ => none

/-- All a `Reconnect` works on comes from its snapshot, or has the id of a wrapper in it. -/
structure Replay.Ok (s : Shared ID) (r : Replay) : Prop where
  todo : r.todo ⊆ r.snap
  created : ∀ w ∈ r.snap, w < s.nextWrap
  found : ∀ v ∈ r.found, v < s.nextWrap ∧ ∃ w ∈ r.snap, (s.wraps v).id = (s.wraps w).id

def Replaying (s : Shared ID) (t : Task ID) : Prop := ∀ r ∈ t.replay, r.Ok s

variable [DecidableEq ID] {gen : ℕ → ID} {s : Shared ID} {t t' : Task ID} {e : Effect ID}

/-- Wrappers keep their ids, so no step of any goroutine disturbs a replay. -/
theorem Replay.Ok.effect {r : Replay} (h : r.Ok s) (e : Effect ID) :
    r.Ok (Session.effect e s) := by
  have hle := effect_nextWrap_le e s
  refine ⟨h.todo, fun w hw => lt_of_lt_of_le (h.created w hw) hle, fun v hv => ?_⟩
  obtain ⟨hlt, w, hw, hid⟩ := h.found v hv
  refine ⟨lt_of_lt_of_le hlt hle, w, hw, ?_⟩
  rw [effect_wraps_id e hlt, effect_wraps_id e (h.created w hw), hid]

/-- The snapshot has the registered wrappers, all of them. -/
theorem mem_snapshot {ws : List Ref} (hws : ws.Perm (s.streams.entries.map Sigma.snd)) {w : Ref} :
    w ∈ ws ↔ ∃ id, s.streams.lookup id = some w := by
  rw [hws.mem_iff, List.mem_map]
  constructor
  · rintro ⟨⟨id, v⟩, hmem, rfl⟩
    exact ⟨id, AList.mem_lookup_iff.mpr hmem⟩
  · rintro ⟨id, hw⟩
    exact ⟨⟨id, w⟩, AList.mem_lookup_iff.mp hw, rfl⟩

/-- A goroutine's own step, before its effect: a replay goes on with less to do, or begins. -/
theorem replay_step (hkey : Keyed s) (hJ : Replaying s t) (hm : Moves gen s t t' e) :
    Replaying s t' := by
  intro r hr
  cases hm with
  | snapshot hws =>
    cases hr
    exact ⟨List.Subset.refl _, fun w hw => by
      obtain ⟨id, hid⟩ := (mem_snapshot hws).mp hw
      exact (hkey id w hid).1, by simp⟩
  | resume => cases hr; exact hJ _ rfl
  | resumeUnopened => cases hr; exact hJ _ rfl
  | resumeFailed => cases hr; exact hJ _ rfl
  | resumed =>
    cases hr
    have h := hJ _ rfl
    exact ⟨fun w hw => h.todo (List.mem_cons_of_mem _ hw), h.created, by simp⟩
  | drop =>
    cases hr
    have h := hJ _ rfl
    refine ⟨h.todo, h.created, fun v hv => ?_⟩
    obtain ⟨hlt, hid⟩ := hkey _ v hv
    exact ⟨hlt, _, h.todo List.mem_cons_self, hid⟩
  | dropFound =>
    cases hr
    have h := hJ _ rfl
    exact ⟨fun w hw => h.todo (List.mem_cons_of_mem _ hw), h.created, by simp⟩
  | incomingWraps => rename_i ena; cases ena <;> cases hr
  | notRegistered => rename_i w; cases w <;> cases hr
  | modeKnown => rename_i w; cases w <;> cases hr
  | _ => cases hr

omit [DecidableEq ID] in
theorem entry_replay (h : entry s t = true) : t.replay = none := by
  cases t <;> first | rfl | cases h

theorem replay_sound [Inhabited ID] :
    (program gen).Sound initial (fun _ _ _ => true) Keyed Replaying (fun _ _ => True) where
  init := by
    intro id v hv
    simp [initial] at hv
  idle := ⟨by simp [Replaying, program, Task.replay], trivial⟩
  start := by
    intro s t _ he r hr
    simp [entry_replay he] at hr
  start_other := fun _ _ => ⟨trivial, trivial⟩
  step := by
    intro s t c t' e hG hJ _ hn
    exact ⟨effect_keyed e hG, fun r hr => (replay_step hG hJ (next_moves hn) r hr).effect e⟩
  other := by
    intro s t u c t' e _ _ hu _ _ _
    exact ⟨fun r hr => (hu r hr).effect e, trivial, trivial⟩

/-! ## One step -/

/-- Before the snapshot a `Reconnect` changes connections only. -/
theorem preparing_unchanged (ht : t.preparing = true) (hm : Moves gen s t t' e) (v : Ref) :
    Unchanged s (effect e s) v := by
  cases hm <;> first | exact ⟨rfl, rfl, Iff.rfl⟩ | cases ht

/-- A replaying step leaves a wrapper alone when no wrapper of the snapshot has its id. -/
theorem replay_unchanged {r : Replay} (hr : r ∈ t.replay) (hJ : r.Ok s) (hm : Moves gen s t t' e)
    {v : Ref} (hv : ∀ w ∈ r.snap, (s.wraps w).id ≠ (s.wraps v).id) :
    Unchanged s (effect e s) v := by
  cases hm with
  | reconnected => exact .refl s v
  | resume => exact ⟨rfl, rfl, Iff.rfl⟩
  | resumeUnopened => exact .refl s v
  | resumeFailed => exact .refl s v
  | resumed =>
    cases hr
    refine setWrap_unchanged _ ?_
    rintro rfl
    exact hv v (hJ.todo List.mem_cons_self) rfl
  | drop =>
    cases hr
    have hid := hv _ (hJ.todo List.mem_cons_self)
    refine ⟨rfl, rfl, ?_⟩
    simp only [effect, Registered]
    rw [AList.lookup_erase_ne hid.symm]
  | dropFound =>
    cases hr
    rename_i found
    cases found with
    | none => exact .refl s v
    | some u =>
      obtain ⟨-, w, hw, hid⟩ := hJ.found u rfl
      refine setWrap_unchanged _ ?_
      rintro rfl
      exact hv w hw hid.symm
  | _ => cases hr

/-! ## The whole run -/

/-- The goroutine is in the replay that began with the snapshot `ws`, or through with it, and the
wrappers of the snapshot have the ids they had in `s₀`. -/
structure Since (s₀ : Shared ID) (ws : List Ref) (i : ℕ)
    (p : Program.Pool (Shared ID) (Task ID)) : Prop where
  started : i < p.count
  replay : (∃ r, (p.threads i).replay = some r ∧ r.snap = ws) ∨ p.threads i = .done
  ids : ∀ w ∈ ws, w < p.shared.nextWrap ∧ (p.shared.wraps w).id = (s₀.wraps w).id

/-- A replay keeps its snapshot until it ends. -/
theorem replay_snap {r : Replay} (hr : t.replay = some r) (hm : Moves gen s t t' e) :
    (∃ r', t'.replay = some r' ∧ r'.snap = r.snap) ∨ t' = .done := by
  cases hm with
  | reconnected => exact .inr rfl
  | _ => first | (cases hr; exact .inl ⟨_, rfl, rfl⟩) | cases hr

variable {p p' : Program.Pool (Shared ID) (Task ID)} {i : ℕ} {ws : List Ref}

theorem pool_ids {a : Program.Act (Task ID) Choice} (hs : (program gen).step p a = some p')
    {w : Ref} (hw : w < p.shared.nextWrap) :
    w < p'.shared.nextWrap ∧ (p'.shared.wraps w).id = (p.shared.wraps w).id := by
  rcases a with t | ⟨j, c⟩
  · obtain ⟨-, rfl⟩ := Program.start_cases hs
    exact ⟨hw, rfl⟩
  · obtain ⟨t, e, -, rfl⟩ := Program.run_cases hs
    exact ⟨lt_of_lt_of_le hw (effect_nextWrap_le e _), effect_wraps_id e hw⟩

theorem since_step {s₀ : Shared ID} {a : Program.Act (Task ID) Choice} (h : Since s₀ ws i p)
    (hs : (program gen).step p a = some p') : Since s₀ ws i p' := by
  refine ⟨lt_of_lt_of_le h.started ?_, ?_, fun w hw => ?_⟩
  · rcases a with t | ⟨j, c⟩
    · obtain ⟨-, rfl⟩ := Program.start_cases hs
      exact Nat.le_succ _
    · obtain ⟨t, e, -, rfl⟩ := Program.run_cases hs
      exact le_rfl
  · rcases Program.thread_cases hs h.started with hsame | ⟨c, e, hn⟩
    · rw [hsame]
      exact h.replay
    · rcases h.replay with ⟨r, hr, rfl⟩ | hdone
      · exact replay_snap hr (next_moves hn)
      · rw [hdone] at hn
        cases hn
  · obtain ⟨hlt, hid⟩ := h.ids w hw
    obtain ⟨hlt', hid'⟩ := pool_ids hs hlt
    exact ⟨hlt', hid'.trans hid⟩

variable [Inhabited ID]

theorem since_snapshot {c : Choice} (h : (machine gen).Reach p)
    (ht : p.threads i = .reconnectSnapshot) (hs : (machine gen).step p (.run i c) = some p') :
    ∃ ws, (∀ w ∈ ws, ∃ id, p.shared.streams.lookup id = some w) ∧ Since p.shared ws i p' := by
  obtain ⟨t, e, hn, rfl⟩ := Program.run_cases hs
  have hm := next_moves hn
  have hlt : i < p.count := by
    by_contra hle
    have hidle := Program.idle_of_count_le (fun _ _ => rfl) h i (Nat.le_of_not_lt hle)
    rw [ht] at hidle
    cases hidle
  generalize hthread : p.threads i = u at hm
  cases hm with
  | snapshot hws =>
    rename_i ws
    refine ⟨ws, fun w hw => (mem_snapshot hws).mp hw, hlt, .inl ⟨⟨ws, ws, none⟩, ?_, rfl⟩, ?_⟩
    · simp [Task.replay]
    · intro w hw
      obtain ⟨id, hid⟩ := (mem_snapshot hws).mp hw
      exact ⟨(reach_keyed h id w hid).1, rfl⟩
  | _ =>
    rw [ht] at hthread
    cases hthread

/-- **A `Reconnect` touches only streams that were registered at its snapshot.** Up to and including
the snapshot it changes no wrapper and no entry. From then on, in every interleaving, it changes
neither the flag, the inner nor the registration of a wrapper whose id was not in `s.streams` at
the snapshot. -/
theorem reconnect_touches_snapshot {c : Choice} (h : (machine gen).Reach p)
    (hs : (machine gen).step p (.run i c) = some p') :
    ((p.threads i).preparing = true → ∀ v, Unchanged p.shared p'.shared v) ∧
    (p.threads i = .reconnectSnapshot → ∀ q d q', (machine gen).ReachFrom p' q →
      (machine gen).step q (.run i d) = some q' →
      ∀ v, p.shared.streams.lookup (q.shared.wraps v).id = none →
        Unchanged q.shared q'.shared v) := by
  refine ⟨fun ht v => ?_, fun ht q d q' hq hs' v hv => ?_⟩
  · obtain ⟨t, e, hn, rfl⟩ := Program.run_cases hs
    exact preparing_unchanged ht (next_moves hn) v
  · obtain ⟨ws, hws, hsince⟩ := since_snapshot h ht hs
    have hp' : (machine gen).Reach p' := h.step hs
    have hin : Since p.shared ws i q :=
      Machine.ReachFrom.invariant hp' hsince (fun _ _ _ _ hi hst => since_step hi hst) hq
    obtain ⟨t, e, hn, rfl⟩ := Program.run_cases hs'
    rcases hin.replay with ⟨r, hr, rfl⟩ | hdone
    · have hok := (Program.invariant_reach replay_sound (hp'.trans hq)).thread i r hr
      refine replay_unchanged hr hok (next_moves hn) fun w hw heq => ?_
      obtain ⟨id, hid⟩ := hws w hw
      rw [← heq, (hin.ids w hw).2, (reach_keyed h id w hid).2, hid] at hv
      cases hv
    · rw [hdone] at hn
      cases hn

/-- Goroutine `i` dials, to the end. -/
def dials (i : ℕ) : List (Program.Act (Task ℕ) Choice) :=
  .start .dial :: List.replicate 6 (.run i .ok)

/-- A stream is dialled, then a `Reconnect` goes up to its snapshot. -/
def upToSnapshot : List (Program.Act (Task ℕ) Choice) :=
  dials 0 ++ [.start .reconnect, .run 1 .ok, .run 1 .ok, .run 1 .ok, .run 1 .ok]

/-- A stream dialled after the snapshot, while the one before it is being dropped. -/
theorem reconnect_touches_snapshot_upToSnapshot :
    ∃ p p' q q', (machine id).run (machine id).init upToSnapshot = some p ∧
      (machine id).step p (.run 1 (.order [0])) = some p' ∧
      (machine id).run p' (dials 2 ++ [.run 1 .err]) = some q ∧
      (machine id).step q (.run 1 .ok) = some q' ∧
      ¬ Registered q'.shared 0 ∧ Unchanged q.shared q'.shared 1 := by
  refine ⟨_, _, _, _, rfl, rfl, rfl, rfl, by unfold Registered; decide, ?_⟩
  have hreach := Machine.reach_of_run (M := machine (id : ℕ → ℕ)) upToSnapshot rfl
  have htouch := (reconnect_touches_snapshot (i := 1) (c := .order [0]) hreach rfl).2 rfl
  refine htouch _ .ok _ ?_ rfl 1 rfl
  exact Machine.reachFrom_of_run (M := machine (id : ℕ → ℕ)) (dials 2 ++ [.run 1 .err]) rfl

/-- **A stream of the new connection is dropped.** It is dialled between the exchange of the
connection and the snapshot; its `STREAM_RESUME` fails. -/
theorem reconnect_drops_new :
    ∃ p p', (machine id).run (machine id).init
        ([.start .reconnect, .run 0 .ok, .run 0 .ok, .run 0 .ok] ++ dials 1 ++ [.run 0 .ok]) =
          some p ∧
      (machine id).run p [.run 0 (.order [0]), .run 0 .ok, .run 0 .err, .run 0 .ok, .run 0 .ok] =
        some p' ∧
      (p.shared.wraps 0).inner.conn = p.shared.conn ∧ p.shared.conn ∉ p.shared.closed ∧
      (p'.shared.wraps 0).inner = (p.shared.wraps 0).inner ∧
      Registered p.shared 0 ∧ (p.shared.wraps 0).abandoned = false ∧
      ¬ Registered p'.shared 0 ∧ (p'.shared.wraps 0).abandoned = true := by
  refine ⟨_, _, rfl, rfl, rfl, ?_⟩
  unfold Registered
  decide

end OutRelayAgent.Session
