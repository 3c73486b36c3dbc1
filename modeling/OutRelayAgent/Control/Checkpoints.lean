import OutRelayAgent.Lib.Machine
import OutRelayAgent.Lib.Table
import OutRelayAgent.Resume.State

/-!
# Checkpoints and how often they are sent

Model of `StartResume`, `emitCheckpoints` and `emitOnce` (`checkpoints.go:15-70`) with `EnableP2P`
(`promote.go:24-47`), against streams that open, close and carry data.

* **`EnableP2P`** starts a control reader unless the flag `p2pEnabled` is set.
* **`StartResume`** calls `EnableP2P` and starts an emitter. The flag guards the reader only.
* **An emitter** takes the states of the active streams at each tick of its period, in the order in
  which the map is iterated, and writes one `STREAM_CHECKPOINT` for each, one after the other. A
  write that fails ends the tick. Streams open, close and move on meanwhile; a stream that is closed
  after the tick still gets its checkpoint.
* When a ticker fires is up to the environment. Contexts are not cancelled here, and what makes a
  control reader stop is in `Control/Reader.lean`.

`StartResume` is documented as "Idempotent: a second call is a no-op".

* `checkpoints_once`: in every run with one call of `StartResume` there is one emitter and one
  reader, and each tick that is not cut short by a failing write sends one checkpoint for each
  stream active at the tick, with its current counters. Every further call starts another emitter.
* `second_emitter`: after two calls, a stream gets two checkpoints in one period.
-/

namespace OutRelayAgent.Checkpoints

open Lib

/-- The `resume.State` of a stream: the id it was made with, and a number. -/
structure Ref (ID : Type) where
  id : ID
  serial : ℕ
  deriving DecidableEq

/-- A `STREAM_CHECKPOINT`, with the emitter, its tick and the state it comes from. -/
structure Checkpoint (ID : Type) where
  emitter : ℕ
  tick : ℕ
  source : Ref ID
  streamId : ID
  myPosition : ℕ
  peerAckPosition : ℕ

/-- A tick: the states of the active streams, and the order in which they are written. -/
structure Tick (ID : Type) where
  active : List (Ref ID)
  order : List (Ref ID)

structure Emitter (ID : Type) where
  period : ℤ
  /-- Inside `emitOnce`, the states still to be written. -/
  todo : Option (List (Ref ID))
  -- The rest is read by no step.
  ticks : List (Tick ID)
  /-- The ticks in which a write failed. -/
  failed : List ℕ

structure World (ID : Type) {β : Type} (L : ResumeLib β) where
  p2pEnabled : Bool
  /-- The control readers that have been started. -/
  readers : ℕ
  emitters : ℕ → Emitter ID
  count : ℕ
  /-- `s.streams` -/
  streams : AList fun _ : ID => Ref ID
  states : Ref ID → L.State
  nextSerial : ℕ
  /-- What has been written to the control stream. -/
  frames : List (Checkpoint ID)

/-- What a stream does to its state. -/
inductive Op (β : Type)
  | write (bs : List β)
  | read (n : ℕ)
  | checkpoint (p : ℕ)

inductive Act (ID β : Type)
  | startResume (period : ℤ)
  | enableP2P
  /-- The ticker of an emitter fires, and the streams are collected in an order. -/
  | tick (k : ℕ) (order : List (Ref ID))
  /-- An emitter goes on; the write succeeds or fails. -/
  | emit (k : ℕ) (ok : Bool)
  | wrapStream (id : ID)
  | forgetStream (id : ID)
  | io (r : Ref ID) (op : Op β)

variable {ID β : Type} [DecidableEq ID] {L : ResumeLib β}

def Op.apply (st : L.State) : Op β → L.State
  | .write bs => L.onWrite st bs
  | .read n => L.onRead st n
  | .checkpoint p => L.onCheckpointFromPeer st p

namespace World

/-- The states of the streams in `s.streams`. -/
def active (w : World ID L) : List (Ref ID) := w.streams.entries.map (·.2)

def enableP2P (w : World ID L) : World ID L :=
  if w.p2pEnabled then w else { w with p2pEnabled := true, readers := w.readers + 1 }

/-- `go s.emitCheckpoints(ctx, period)` -/
def startEmitter (w : World ID L) (period : ℤ) : World ID L :=
  { w with
    emitters := Function.update w.emitters w.count ⟨period, none, [], []⟩
    count := w.count + 1 }

/-- `resume.CheckpointPeriodMs` is a constant of `lib/resume`. -/
def startResume (w : World ID L) (checkpointPeriodMs : ℕ) (period : ℤ) : World ID L :=
  w.enableP2P.startEmitter (if period ≤ 0 then checkpointPeriodMs * 1000000 else period)

def setEmitter (w : World ID L) (k : ℕ) (e : Emitter ID) : World ID L :=
  { w with emitters := Function.update w.emitters k e }

/-- The checkpoint for a state, as it is now. -/
def checkpoint (w : World ID L) (k : ℕ) (r : Ref ID) : Checkpoint ID where
  emitter := k
  tick := (w.emitters k).ticks.length - 1
  source := r
  streamId := r.id
  myPosition := L.sent (w.states r)
  peerAckPosition := L.received (w.states r)

/-- `emitOnce`: the next write, or the end. -/
def emit (w : World ID L) (k : ℕ) (ok : Bool) : Option (World ID L) :=
  let e := w.emitters k
  match e.todo, ok with
  | some (r :: rest), true =>
    some { w.setEmitter k { e with todo := some rest } with
      frames := w.frames ++ [w.checkpoint k r] }
  | some (_ :: _), false =>
    some (w.setEmitter k { e with todo := none, failed := e.failed ++ [e.ticks.length - 1] })
  | some [], _ => some (w.setEmitter k { e with todo := none })
  | none, _ => none

end World

def step (checkpointPeriodMs : ℕ) (w : World ID L) : Act ID β → Option (World ID L)
  | .startResume period => some (w.startResume checkpointPeriodMs period)
  | .enableP2P => some w.enableP2P
  | .tick k order =>
    let e := w.emitters k
    if k < w.count ∧ e.todo.isNone ∧ order.isPerm w.active then
      some (w.setEmitter k { e with
        todo := some order
        ticks := e.ticks ++ [⟨w.active, order⟩] })
    else none
  | .emit k ok => if k < w.count then w.emit k ok else none
  | .wrapStream id =>
    some { w with
      streams := w.streams.insert id ⟨id, w.nextSerial⟩
      states := Function.update w.states ⟨id, w.nextSerial⟩ L.newState
      nextSerial := w.nextSerial + 1 }
  | .forgetStream id => some { w with streams := w.streams.erase id }
  | .io r op => some { w with states := Function.update w.states r (op.apply (w.states r)) }

/-- A session without streams, before any call. -/
def machine (ID : Type) [DecidableEq ID] (L : ResumeLib β) (checkpointPeriodMs : ℕ) :
    Machine (World ID L) (Act ID β) where
  init :=
    { p2pEnabled := false
      readers := 0
      emitters := fun _ => ⟨0, none, [], []⟩
      count := 0
      streams := ∅
      states := fun _ => L.newState
      nextSerial := 0
      frames := [] }
  step := step checkpointPeriodMs

/-! ## The condition and the property -/

/-- No emitter has been started when `StartResume` is called. -/
def once (w : World ID L) : Act ID β → Bool
  | .startResume _ => w.count == 0
  | _ => true

/-- The states for which the emitter `k` has written a checkpoint in its tick `n`. -/
def sentAt (frames : List (Checkpoint ID)) (k n : ℕ) : List (Ref ID) :=
  (frames.filter fun f => f.emitter = k ∧ f.tick = n).map (·.source)

/-- The tick `n` is over, and no write has failed in it. -/
def Emitter.complete (e : Emitter ID) (n : ℕ) : Prop :=
  (e.todo = none ∨ n + 1 < e.ticks.length) ∧ n ∉ e.failed

/-- Once `StartResume` has been called, there are one emitter and one reader, and each tick of the
first emitter sends one checkpoint for each active stream. -/
structure Idempotent (w : World ID L) : Prop where
  emitters : w.count = 1
  readers : w.readers = 1
  /-- Every checkpoint is the first emitter's. -/
  first : ∀ f ∈ w.frames, f.emitter = 0
  /-- In a tick that is complete, every stream that was active has got one. -/
  one_each : ∀ n t, (w.emitters 0).ticks[n]? = some t → (w.emitters 0).complete n →
    t.active.Nodup ∧ (sentAt w.frames 0 n).Perm t.active

/-! ## One emitter -/

/-- What an emitter has sent, tick by tick. -/
structure Emitter.Ok (e : Emitter ID) (sent : ℕ → List (Ref ID)) : Prop where
  complete : ∀ n t, e.ticks[n]? = some t → e.complete n → sent n = t.order
  current : ∀ rest, e.todo = some rest → ∃ before t, e.ticks = before ++ [t] ∧
    before.length ∉ e.failed ∧ sent before.length ++ rest = t.order
  later : ∀ n, e.ticks.length ≤ n → sent n = [] ∧ n ∉ e.failed
  order : ∀ t ∈ e.ticks, t.order.Perm t.active ∧ t.active.Nodup

namespace Emitter

variable {e : Emitter ID} {sent sent' : ℕ → List (Ref ID)}

omit [DecidableEq ID]

theorem ok_new (period : ℤ) (h : ∀ n, sent n = []) :
    (⟨period, none, [], []⟩ : Emitter ID).Ok sent :=
  ⟨nofun, nofun, fun n _ => ⟨h n, nofun⟩, nofun⟩

theorem Ok.tick (h : e.Ok sent) (hidle : e.todo = none) {active order : List (Ref ID)}
    (hperm : order.Perm active) (hnodup : active.Nodup) :
    ({ e with
      todo := some order
      ticks := e.ticks ++ [⟨active, order⟩] } : Emitter ID).Ok sent := by
  obtain ⟨hsent, hfailed⟩ := h.later e.ticks.length (Nat.le_refl _)
  refine ⟨?_, ?_, ?_, ?_⟩
  · intro n t ht hcomplete
    obtain ⟨hover, hn⟩ := hcomplete
    have hlt : n < e.ticks.length := by
      rcases hover with hover | hover
      · cases hover
      · simpa using hover
    rw [List.getElem?_append_left hlt] at ht
    exact h.complete n t ht ⟨.inl hidle, hn⟩
  · intro rest hrest
    cases hrest
    exact ⟨e.ticks, ⟨active, order⟩, rfl, hfailed, by rw [hsent, List.nil_append]⟩
  · intro n hn
    rw [List.length_append] at hn
    exact h.later n (by omega)
  · intro t ht
    rcases List.mem_append.mp ht with ht | ht
    · exact h.order t ht
    · rw [List.mem_singleton.mp ht]
      exact ⟨hperm, hnodup⟩

/-- The position of the current tick. -/
theorem Ok.pos (h : e.Ok sent) {rest : List (Ref ID)} (htodo : e.todo = some rest) :
    0 < e.ticks.length := by
  obtain ⟨before, t, hticks, -⟩ := h.current rest htodo
  rw [hticks, List.length_append]
  exact Nat.succ_pos _

theorem Ok.write (h : e.Ok sent) {r : Ref ID} {rest : List (Ref ID)}
    (htodo : e.todo = some (r :: rest))
    (hsent : ∀ n, sent' n = if n = e.ticks.length - 1 then sent n ++ [r] else sent n) :
    ({ e with todo := some rest } : Emitter ID).Ok sent' := by
  obtain ⟨before, t, hticks, hfailed, hall⟩ := h.current _ htodo
  have hlen : e.ticks.length = before.length + 1 := by
    rw [hticks, List.length_append, List.length_singleton]
  have hother : ∀ n, n ≠ before.length → sent' n = sent n := by
    intro n hn
    rw [hsent, if_neg (by omega)]
  refine ⟨?_, ?_, ?_, h.order⟩
  · intro n t' ht' hcomplete
    obtain ⟨hover, hn⟩ := hcomplete
    have hlt : n + 1 < e.ticks.length := hover.resolve_left nofun
    rw [hother n (by omega)]
    exact h.complete n t' ht' ⟨.inr hlt, hn⟩
  · intro rest' hrest'
    cases hrest'
    refine ⟨before, t, hticks, hfailed, ?_⟩
    rw [hsent, if_pos (by omega), List.append_assoc]
    exact hall
  · intro n hn
    have hn : e.ticks.length ≤ n := hn
    rw [hother n (by omega)]
    exact h.later n hn

theorem Ok.fail (h : e.Ok sent) {rest : List (Ref ID)} (htodo : e.todo = some rest) :
    ({ e with todo := none, failed := e.failed ++ [e.ticks.length - 1] } : Emitter ID).Ok sent := by
  have hpos := h.pos htodo
  refine ⟨?_, nofun, ?_, h.order⟩
  · intro n t ht hcomplete
    obtain ⟨-, hn⟩ := hcomplete
    rw [List.mem_append, List.mem_singleton, not_or] at hn
    obtain ⟨hlt, -⟩ := List.getElem?_eq_some_iff.mp ht
    have hlt : n < e.ticks.length := hlt
    exact h.complete n t ht ⟨.inr (by omega), hn.1⟩
  · intro n hn
    have hn : e.ticks.length ≤ n := hn
    refine ⟨(h.later n hn).1, fun hmem => ?_⟩
    rw [List.mem_append, List.mem_singleton] at hmem
    rcases hmem with hmem | hmem
    · exact (h.later n hn).2 hmem
    · omega

theorem Ok.finish (h : e.Ok sent) (htodo : e.todo = some []) :
    ({ e with todo := none } : Emitter ID).Ok sent := by
  obtain ⟨before, t, hticks, hfailed, hall⟩ := h.current _ htodo
  refine ⟨?_, nofun, h.later, h.order⟩
  intro n t' ht' hcomplete
  have ht' : e.ticks[n]? = some t' := ht'
  by_cases hn : n = before.length
  · subst hn
    obtain rfl : t' = t := by simpa [hticks] using ht'.symm
    rw [← hall, List.append_nil]
  · obtain ⟨hlt, -⟩ := List.getElem?_eq_some_iff.mp ht'
    rw [hticks, List.length_append, List.length_singleton] at hlt
    refine h.complete n t' ht' ⟨.inr ?_, hcomplete.2⟩
    rw [hticks, List.length_append, List.length_singleton]
    omega

end Emitter

/-! ## The session -/

section Session

variable {w w' : World ID L}

omit [DecidableEq ID] in
theorem sentAt_append (fs : List (Checkpoint ID)) (f : Checkpoint ID) (k n : ℕ) :
    sentAt (fs ++ [f]) k n =
      if f.emitter = k ∧ f.tick = n then sentAt fs k n ++ [f.source] else sentAt fs k n := by
  unfold sentAt
  rw [List.filter_append, List.map_append]
  by_cases h : f.emitter = k ∧ f.tick = n
  · simp [h]
  · simp [h]

omit [DecidableEq ID] in
theorem sentAt_eq_nil {fs : List (Checkpoint ID)} {k : ℕ} (h : ∀ f ∈ fs, f.emitter ≠ k)
    (n : ℕ) : sentAt fs k n = [] := by
  unfold sentAt
  rw [List.map_eq_nil_iff, List.filter_eq_nil_iff]
  intro f hf
  simp [h f hf]

/-- What holds in every run. -/
structure Inv (w : World ID L) : Prop where
  streams : ∀ id r, w.streams.lookup id = some r → r.id = id
  readers : w.readers = if w.p2pEnabled then 1 else 0
  enabled : 0 < w.count → w.p2pEnabled = true
  emitters : ∀ k, (w.emitters k).Ok (sentAt w.frames k)
  frames : ∀ f ∈ w.frames, f.emitter < w.count

/-- Two active streams have different states. -/
theorem Inv.nodup_active (h : Inv w) : w.active.Nodup := by
  refine List.Nodup.of_map (fun r => r.id) ?_
  have hkeys : w.active.map (fun r => r.id) = w.streams.keys := by
    unfold World.active AList.keys List.keys
    rw [List.map_map]
    refine List.map_congr_left fun x hx => ?_
    exact h.streams x.1 x.2 (AList.mem_lookup_iff.mpr hx)
  rw [hkeys]
  exact w.streams.keys_nodup

theorem inv_enableP2P (h : Inv w) : Inv w.enableP2P ∧ w.enableP2P.p2pEnabled = true := by
  unfold World.enableP2P
  by_cases he : w.p2pEnabled = true
  · rw [if_pos he]
    exact ⟨h, he⟩
  · rw [if_neg he]
    have hnone : w.readers = 0 := by rw [h.readers, if_neg he]
    exact ⟨⟨h.streams, by simp [hnone], fun _ => rfl, h.emitters, h.frames⟩, rfl⟩

theorem inv_startEmitter (h : Inv w) (he : w.p2pEnabled = true) (period : ℤ) :
    Inv (w.startEmitter period) := by
  refine ⟨h.streams, h.readers, fun _ => he, fun k => ?_, fun f hf => ?_⟩
  · by_cases hk : k = w.count
    · subst hk
      have hnew : (⟨period, none, [], []⟩ : Emitter ID).Ok (sentAt w.frames w.count) :=
        Emitter.ok_new period fun n =>
          sentAt_eq_nil (fun f hf => Nat.ne_of_lt (h.frames f hf)) n
      simpa [World.startEmitter] using hnew
    · simpa [World.startEmitter, hk] using h.emitters k
  · exact Nat.lt_succ_of_lt (h.frames f hf)

/-- A step of one emitter that writes nothing. -/
theorem inv_setEmitter (h : Inv w) {k : ℕ} {e : Emitter ID} (he : e.Ok (sentAt w.frames k)) :
    Inv (w.setEmitter k e) := by
  refine ⟨h.streams, h.readers, h.enabled, fun j => ?_, h.frames⟩
  by_cases hj : j = k
  · subst hj
    simpa [World.setEmitter] using he
  · simpa [World.setEmitter, hj] using h.emitters j

theorem inv_write (h : Inv w) {k : ℕ} (hk : k < w.count) {r : Ref ID} {rest : List (Ref ID)}
    (htodo : (w.emitters k).todo = some (r :: rest)) :
    Inv { w.setEmitter k { w.emitters k with todo := some rest } with
      frames := w.frames ++ [w.checkpoint k r] } := by
  refine ⟨h.streams, h.readers, h.enabled, fun j => ?_, fun f hf => ?_⟩
  · by_cases hj : j = k
    · subst hj
      have hok : ({ w.emitters j with todo := some rest } : Emitter ID).Ok
          (sentAt (w.frames ++ [w.checkpoint j r]) j) := by
        refine (h.emitters j).write htodo fun n => ?_
        rw [sentAt_append]
        simp [World.checkpoint, eq_comm]
      simpa [World.setEmitter] using hok
    · have hsame : sentAt (w.frames ++ [w.checkpoint k r]) j = sentAt w.frames j := by
        funext n
        rw [sentAt_append, if_neg fun hfj => hj hfj.1.symm]
      simpa [World.setEmitter, hj, hsame] using h.emitters j
  · rcases List.mem_append.mp hf with hf | hf
    · exact h.frames f hf
    · rw [List.mem_singleton.mp hf]
      exact hk

omit [DecidableEq ID] in
/-- An emitter writes the next checkpoint, gives up at it, or is through with its list. -/
theorem emit_cases {k : ℕ} {ok : Bool} (h : w.emit k ok = some w') :
    (∃ r rest, (w.emitters k).todo = some (r :: rest) ∧
      w' = { w.setEmitter k { w.emitters k with todo := some rest } with
        frames := w.frames ++ [w.checkpoint k r] }) ∨
    (∃ r rest, (w.emitters k).todo = some (r :: rest) ∧
      w' = w.setEmitter k { w.emitters k with
        todo := none
        failed := (w.emitters k).failed ++ [(w.emitters k).ticks.length - 1] }) ∨
    ((w.emitters k).todo = some [] ∧ w' = w.setEmitter k { w.emitters k with todo := none }) := by
  unfold World.emit at h
  dsimp only at h
  split at h
  · rename_i r rest htodo
    exact .inl ⟨r, rest, htodo, (Option.some.inj h).symm⟩
  · rename_i r rest htodo
    exact .inr (.inl ⟨r, rest, htodo, (Option.some.inj h).symm⟩)
  · rename_i htodo
    exact .inr (.inr ⟨htodo, (Option.some.inj h).symm⟩)
  · cases h

theorem inv_emit (h : Inv w) {k : ℕ} (hk : k < w.count) {ok : Bool}
    (hst : w.emit k ok = some w') : Inv w' := by
  rcases emit_cases hst with ⟨r, rest, htodo, rfl⟩ | ⟨r, rest, htodo, rfl⟩ | ⟨htodo, rfl⟩
  · exact inv_write h hk htodo
  · exact inv_setEmitter h ((h.emitters k).fail htodo)
  · exact inv_setEmitter h ((h.emitters k).finish htodo)

variable {checkpointPeriodMs : ℕ}

theorem inv_step (h : Inv w) {a : Act ID β} (hst : step checkpointPeriodMs w a = some w') :
    Inv w' := by
  cases a with
  | startResume period =>
    obtain rfl := Option.some.inj hst
    obtain ⟨hinv, he⟩ := inv_enableP2P h
    exact inv_startEmitter hinv he _
  | enableP2P =>
    obtain rfl := Option.some.inj hst
    exact (inv_enableP2P h).1
  | tick k order =>
    obtain ⟨⟨-, hidle, hperm⟩, hw⟩ := Option.ite_none_right_eq_some.mp hst
    obtain rfl := Option.some.inj hw
    exact inv_setEmitter h ((h.emitters k).tick (Option.isNone_iff_eq_none.mp hidle)
      (List.isPerm_iff.mp hperm) h.nodup_active)
  | emit k ok =>
    obtain ⟨hk, hw⟩ := Option.ite_none_right_eq_some.mp hst
    exact inv_emit h hk hw
  | wrapStream id =>
    obtain rfl := Option.some.inj hst
    exact ⟨forall_lookup_insert h.streams rfl, h.readers, h.enabled, h.emitters, h.frames⟩
  | forgetStream id =>
    obtain rfl := Option.some.inj hst
    exact ⟨forall_lookup_erase h.streams, h.readers, h.enabled, h.emitters, h.frames⟩
  | io r op =>
    obtain rfl := Option.some.inj hst
    exact ⟨h.streams, h.readers, h.enabled, h.emitters, h.frames⟩

theorem inv_reach (h : (machine ID L checkpointPeriodMs).Reach w) : Inv w :=
  Machine.Reach.invariant (M := machine ID L checkpointPeriodMs) (I := Inv)
    ⟨by simp [machine], rfl, nofun, fun _ => Emitter.ok_new 0 fun _ => rfl, nofun⟩
    (fun _ _ _ hi hst => inv_step hi hst) h

omit [DecidableEq ID] in
theorem enableP2P_same : w.enableP2P.count = w.count ∧ w.enableP2P.frames = w.frames := by
  unfold World.enableP2P
  split <;> exact ⟨rfl, rfl⟩

omit [DecidableEq ID] in
theorem startResume_count (period : ℤ) :
    (w.startResume checkpointPeriodMs period).count = w.count + 1 :=
  congrArg (· + 1) enableP2P_same.1

/-- Only `StartResume` starts an emitter. -/
theorem step_count {a : Act ID β} (hst : step checkpointPeriodMs w a = some w') :
    w'.count = w.count ∨ ∃ period, a = .startResume period ∧ w'.count = w.count + 1 := by
  cases a with
  | startResume period =>
    obtain rfl := Option.some.inj hst
    exact .inr ⟨period, rfl, startResume_count period⟩
  | enableP2P =>
    obtain rfl := Option.some.inj hst
    exact .inl enableP2P_same.1
  | tick k order =>
    obtain ⟨-, hw⟩ := Option.ite_none_right_eq_some.mp hst
    exact .inl (Option.some.inj hw ▸ rfl)
  | emit k ok =>
    obtain ⟨-, hw⟩ := Option.ite_none_right_eq_some.mp hst
    left
    rcases emit_cases hw with ⟨r, rest, -, rfl⟩ | ⟨r, rest, -, rfl⟩ | ⟨-, rfl⟩
    · rfl
    · rfl
    · rfl
  | wrapStream | forgetStream | io => exact .inl (Option.some.inj hst ▸ rfl)

/-- A step that writes a checkpoint takes the counters as they are. -/
theorem step_frames {a : Act ID β} (hst : step checkpointPeriodMs w a = some w') :
    w'.frames = w.frames ∨ ∃ k r, w'.frames = w.frames ++ [w.checkpoint k r] := by
  cases a with
  | startResume | enableP2P =>
    obtain rfl := Option.some.inj hst
    exact .inl enableP2P_same.2
  | tick k order =>
    obtain ⟨-, hw⟩ := Option.ite_none_right_eq_some.mp hst
    exact .inl (Option.some.inj hw ▸ rfl)
  | emit k ok =>
    obtain ⟨-, hw⟩ := Option.ite_none_right_eq_some.mp hst
    rcases emit_cases hw with ⟨r, rest, -, rfl⟩ | ⟨r, rest, -, rfl⟩ | ⟨-, rfl⟩
    · exact .inr ⟨k, r, rfl⟩
    · exact .inl rfl
    · exact .inl rfl
  | wrapStream | forgetStream | io => exact .inl (Option.some.inj hst ▸ rfl)

theorem count_le_one
    (h : (machine ID L checkpointPeriodMs).ReachWhile (fun w a => once w a = true) w) :
    w.count ≤ 1 := by
  refine Machine.ReachWhile.invariant (M := machine ID L checkpointPeriodMs)
    (I := fun w => w.count ≤ 1) (Nat.zero_le 1) ?_ h
  intro w a w' _ hi honce hst
  rcases step_count hst with hsame | ⟨period, rfl, hmore⟩
  · rw [hsame]
    exact hi
  · have hzero : w.count = 0 := by simpa [once] using honce
    omega

end Session

/-- **One call of `StartResume` does what it promises, and every further one starts another
emitter.** The checkpoints carry the counters of the moment. -/
theorem checkpoints_once (L : ResumeLib β) (checkpointPeriodMs : ℕ) :
    (∀ w : World ID L,
      (machine ID L checkpointPeriodMs).ReachWhile (fun w a => once w a = true) w →
      0 < w.count → Idempotent w) ∧
    (∀ (w : World ID L) a w', (machine ID L checkpointPeriodMs).step w a = some w' →
      w'.frames = w.frames ∨ ∃ f, w'.frames = w.frames ++ [f] ∧ f.streamId = f.source.id ∧
        f.myPosition = L.sent (w.states f.source) ∧
        f.peerAckPosition = L.received (w.states f.source)) ∧
    ∀ (w : World ID L) period w', (machine ID L checkpointPeriodMs).Reach w →
      (machine ID L checkpointPeriodMs).step w (.startResume period) = some w' →
      once w (.startResume period : Act ID β) = false → ¬ Idempotent w' := by
  refine ⟨fun w h hpos => ?_, fun w a w' hst => ?_, fun w period w' _ hst honce hidem => ?_⟩
  · have hinv := inv_reach h.reach
    have hone : w.count = 1 := Nat.le_antisymm (count_le_one h) hpos
    refine ⟨hone, ?_, fun f hf => ?_, fun n t ht hcomplete => ?_⟩
    · rw [hinv.readers, if_pos (hinv.enabled hpos)]
    · have hlt := hinv.frames f hf
      omega
    · obtain ⟨hperm, hnodup⟩ := (hinv.emitters 0).order t (List.mem_of_getElem? ht)
      rw [(hinv.emitters 0).complete n t ht hcomplete]
      exact ⟨hnodup, hperm⟩
  · rcases step_frames hst with hsame | ⟨k, r, hmore⟩
    · exact .inl hsame
    · exact .inr ⟨_, hmore, rfl, rfl, rfl⟩
  · have hpos : w.count ≠ 0 := by simpa [once] using honce
    obtain rfl := Option.some.inj hst
    have hcount := hidem.emitters
    rw [startResume_count] at hcount
    omega

/-- Two streams, one call of `StartResume` between two of `EnableP2P`, and a tick during which a
third stream opens and one of the two carries data. -/
def oneCall : List (Act ℕ ℕ) :=
  [.wrapStream 1, .enableP2P, .wrapStream 2, .startResume 0, .enableP2P,
   .tick 0 [⟨1, 0⟩, ⟨2, 1⟩], .emit 0 true, .wrapStream 3, .io ⟨2, 1⟩ (.write [7, 8]), .emit 0 true,
   .emit 0 true]

abbrev ringMachine : Machine (World ℕ (ResumeLib.ringLib ℕ 4)) (Act ℕ ℕ) :=
  machine ℕ (ResumeLib.ringLib ℕ 4) 1000

theorem oneCall_idempotent : ∃ w, ringMachine.run ringMachine.init oneCall = some w ∧
    w.frames.map (fun f => (f.streamId, f.myPosition)) = [(1, 0), (2, 2)] ∧ Idempotent w := by
  have hr := Machine.reachWhile_of_run (M := ringMachine) (C := once) oneCall rfl
  exact ⟨_, rfl, rfl, (checkpoints_once (ResumeLib.ringLib ℕ 4) 1000).1 _ hr (by decide)⟩

/-- One stream, two calls of `StartResume` and one tick of each emitter. -/
def twoCalls : List (Act ℕ ℕ) :=
  [.wrapStream 1, .startResume 0, .startResume 0, .tick 0 [⟨1, 0⟩], .tick 1 [⟨1, 0⟩],
   .emit 0 true, .emit 1 true, .emit 0 true, .emit 1 true]

/-- **A second call is not a no-op.** The stream has two checkpoints with the same counters. -/
theorem second_emitter : ∃ w, ringMachine.run ringMachine.init twoCalls = some w ∧
    w.count = 2 ∧ w.readers = 1 ∧ (w.emitters 0).period = (w.emitters 1).period ∧
    w.frames.map (fun f => (f.streamId, f.myPosition)) = [(1, 0), (1, 0)] ∧ ¬ Idempotent w := by
  refine ⟨_, rfl, rfl, rfl, rfl, rfl, fun h => ?_⟩
  exact absurd h.emitters (by decide)

end OutRelayAgent.Checkpoints
