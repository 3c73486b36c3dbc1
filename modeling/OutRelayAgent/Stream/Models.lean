import OutRelayAgent.Direct.Release
import OutRelayAgent.Migrate.Model
import OutRelayAgent.Resume.Invariant
import OutRelayAgent.Session.Model
import OutRelayAgent.Stream.Callers
import OutRelayAgent.Stream.HalfClose
import OutRelayAgent.Stream.Wrapper

/-!
# The models of the callers of `SwapInner`

`Resume`, `MigrateToDirect` and `handleDirectStream` occur in six machines. Each is mapped here to
the one of `Stream/Callers.lean` (`maps_callers`): where its callers stand, and which calls a step
of it is. What holds of every run there holds of every run of these (`Session.inner_installed`).

* `Resume/Relay.lean` and `Migrate/Model.lean` have one step for each call.
* `Session/Model.lean`, `Stream/Wrapper.lean` and `Direct/Release.lean` take the calls between
  `OpenStream` and `SwapInner` in one step, or in two around the lookup in `s.streams`.
* `Stream/HalfClose.lean` has a step for the retransmission, and one for `SwapInner`.
-/

namespace OutRelayAgent

open Lib Callers

/-! ## `Resume/Relay.lean`: `Resume` on each side -/

namespace Relay

variable {β : Type} {L : ResumeLib β} {s s' t : Net L} {a : Act β} {x y : Side}

def Pc.callers : Pc β → Callers.Pc ℕ
  | .run | .dial | .replay => .outside
  | .opened st => .before .resume st .resumePayload
  | .payload st _ _ => .before .resume st .writeResume
  | .waiting st => .before .resume st .parseFrame
  -- The relay pairs streams of one id, so the comparison is part of `parseEcho`.
  | .echoed st _ => .before .resume st .retransmitFrom
  | .gap st _ => .before .resume st .writeGap
  | .written st => .swap st

/-- The wrapper of `x`, and its `Resume`. -/
def callers (x : Side) (s : Net L) : State Unit ℕ :=
  ⟨(s.ends x).inner, fun _ => (s.ends x).pc.callers⟩

def End.Steps (e e' : End L) : Prop :=
  Callers.Steps e.inner e.pc.callers e'.inner e'.pc.callers

theorem End.Steps.setEnd {e : End L} (ht : t.ends = s.ends) (h : (s.ends y).Steps e) :
    (s.ends x).Steps ((t.setEnd y e).ends x) := by
  by_cases hxy : x = y
  · subst hxy
    simpa using h
  · rw [Side.eq_peer_of_ne hxy, Net.setEnd_ends_peer, ht]
    exact .same rfl rfl

/-- A step with the place it starts from. -/
theorem End.Steps.of_pc {e e' : End L} {pc : Pc β} (hpc : e.pc = pc)
    (h : Callers.Steps e.inner pc.callers e'.inner e'.pc.callers) : e.Steps e' := by
  rwa [End.Steps, hpc]

theorem moves_callers (hm : Moves s a s') : (s.ends x).Steps (s'.ends x) := by
  cases hm with
  | emitOnce | ignoreCheckpoint | drop | pair => exact .same rfl rfl
  | read | applyCheckpoint | lose | forget => exact .setEnd rfl (.same rfl rfl)
  | write => exact .setEnd (Net.splice_ends ..) (.same rfl rfl)
  | closeConn y hpc =>
    refine .setEnd rfl ?_
    rcases hpc with hpc | hpc | hpc <;> exact .of_pc hpc (.same rfl rfl)
  | dial y hpc => exact .setEnd rfl (.of_pc hpc (.same rfl rfl))
  | finish y hpc => exact .setEnd rfl (.of_pc hpc (.same rfl rfl))
  | openStream y hpc =>
    refine .setEnd (t := s) rfl ?_
    rcases hpc with hpc | hpc <;> exact .of_pc hpc ⟨[.opened .resume s.next], fun _ => rfl⟩
  | resumePayload y hpc => exact .setEnd rfl (.of_pc hpc ⟨[.call .resumePayload], fun _ => rfl⟩)
  | writeResume y hpc => exact .setEnd rfl (.of_pc hpc ⟨[.call .writeResume], fun _ => rfl⟩)
  | parseEcho y hpc =>
    exact .setEnd rfl (.of_pc hpc ⟨[.call .parseFrame, .call .compareID], fun _ => rfl⟩)
  | retransmitFrom y hpc => exact .setEnd rfl (.of_pc hpc ⟨[.call .retransmitFrom], fun _ => rfl⟩)
  | writeGap y hpc =>
    exact .setEnd (Net.splice_ends ..) (.of_pc hpc ⟨[.call .writeGap], fun _ => rfl⟩)
  | writeGapErr y k hpc => exact .setEnd (Net.splice_ends ..) (.of_pc hpc ⟨[.fail], fun _ => rfl⟩)
  | swapInner y hpc =>
    exact .setEnd rfl (.of_pc hpc ⟨[.swapInner, .closeReady, .cancelRead], fun _ => rfl⟩)
  | fail y hpc =>
    refine .setEnd rfl ⟨[.fail], fun _ => ?_⟩
    generalize (s.ends y).pc = pc at hpc
    cases pc <;> first | rfl | cases hpc

theorem maps_callers (x : Side) (i : ℕ) :
    (machine L).Maps (Callers.machine Unit i) (fun _ => True) (callers x) :=
  maps_of_steps (fun _ _ _ _ _ => trivial) fun _ _ _ _ hst =>
    ⟨(), moves_callers (step_moves hst), fun _ hj => absurd rfl hj⟩

end Relay

/-! ## `Migrate/Model.lean`: `MigrateToDirect` on one side, `handleDirectStream` on the other -/

namespace Migrate

variable {β : Type} {L : ResumeLib (Cell β)} {s s' : Net L} {a : Act β} {x y : Role}

def InitPc.callers : InitPc → Pc Path
  | .start | .done | .failed => .outside
  | .opened => .before .migrateToDirect .direct .resumePayload
  | .payload _ _ => .before .migrateToDirect .direct .writeResume
  | .sent => .swap .direct
  | .swapped => .cancel

def RespPc.callers : RespPc β → Pc Path
  | .idle | .done | .refused => .outside
  | .parsed _ => .before .handleDirectStream .direct .lookup
  | .found _ => .before .handleDirectStream .direct .retransmitFrom
  | .gap _ => .before .handleDirectStream .direct .writeGap
  | .written => .swap .direct
  | .swapped => .cancel

def Net.callersPc (s : Net L) : Role → Pc Path
  | .initiator => s.ipc.callers
  | .responder => s.rpc.callers

/-- The wrapper of `x`, and the function that replaces its inner. -/
def callers (x : Role) (s : Net L) : State Unit Path := ⟨(s.wraps x).inner, fun _ => s.callersPc x⟩

def Net.Steps (x : Role) (s s' : Net L) : Prop :=
  Callers.Steps (s.wraps x).inner (s.callersPc x) (s'.wraps x).inner (s'.callersPc x)

theorem Net.Steps.of_same (hinner : (s'.wraps x).inner = (s.wraps x).inner)
    (hi : s'.ipc = s.ipc) (hr : s'.rpc = s.rpc) : s.Steps x s' := by
  refine .same hinner ?_
  cases x
  · exact congrArg InitPc.callers hi
  · exact congrArg RespPc.callers hr

theorem setWrap_inner {w : Wrap L} (hw : w.inner = (s.wraps y).inner) :
    ((s.setWrap y w).wraps x).inner = (s.wraps x).inner := by
  rw [Net.setWrap_wraps]
  split
  · rename_i hxy
    rw [hxy, hw]
  · rfl

/-- A step of `MigrateToDirect` leaves the responder's wrapper as it is. -/
theorem Net.Steps.initiator {pc : InitPc} (hpc : s.ipc = pc)
    (h : Callers.Steps (s.wraps .initiator).inner pc.callers (s'.wraps .initiator).inner
      s'.ipc.callers)
    (hinner : (s'.wraps .responder).inner = (s.wraps .responder).inner) (hr : s'.rpc = s.rpc) :
    s.Steps x s' := by
  cases x
  · rw [← hpc] at h
    exact h
  · exact .same hinner (congrArg RespPc.callers hr)

/-- A step of `handleDirectStream` leaves the initiator's. -/
theorem Net.Steps.responder {pc : RespPc β} (hpc : s.rpc = pc)
    (h : Callers.Steps (s.wraps .responder).inner pc.callers (s'.wraps .responder).inner
      s'.rpc.callers)
    (hinner : (s'.wraps .initiator).inner = (s.wraps .initiator).inner) (hi : s'.ipc = s.ipc) :
    s.Steps x s' := by
  cases x
  · exact .same hinner (congrArg InitPc.callers hi)
  · rw [← hpc] at h
    exact h

theorem moves_callers (hm : Moves s a s') : s.Steps x s' := by
  cases hm with
  | readCapture | innerRead | readErr | readEof | write | writeCapture | innerWrite | writeErr =>
    exact .of_same rfl rfl rfl
  | onRead | onWrite | applyCheckpoint | closeWrite | close | closeCapture | closeInner =>
    exact .of_same (setWrap_inner rfl) rfl rfl
  | openStream h =>
    exact .initiator h ⟨[.opened .migrateToDirect .direct], fun _ => rfl⟩ rfl rfl
  | openErr h => exact .initiator h (.same rfl rfl) rfl rfl
  | resumePayload h => exact .initiator h ⟨[.call .resumePayload], fun _ => rfl⟩ rfl rfl
  | writeResume h => exact .initiator h ⟨[.call .writeResume], fun _ => rfl⟩ rfl rfl
  | writeResumeErr h => exact .initiator h ⟨[.fail], fun _ => rfl⟩ rfl rfl
  | swapInitiator h =>
    exact .initiator h ⟨[.swapInner, .closeReady], fun _ => rfl⟩ rfl rfl
  | cancelInitiator h => exact .initiator h ⟨[.cancelRead], fun _ => rfl⟩ rfl rfl
  | parseFrame h =>
    exact .responder h ⟨[.opened .handleDirectStream .direct, .call .parseFrame], fun _ => rfl⟩
      rfl rfl
  | parseErr h =>
    exact .responder h ⟨[.opened .handleDirectStream .direct, .fail], fun _ => rfl⟩ rfl rfl
  | lookup h => exact .responder h ⟨[.call .lookup], fun _ => rfl⟩ rfl rfl
  | unknown h => exact .responder h ⟨[.fail], fun _ => rfl⟩ rfl rfl
  | retransmitFrom h => exact .responder h ⟨[.call .retransmitFrom], fun _ => rfl⟩ rfl rfl
  | evicted h => exact .responder h ⟨[.fail], fun _ => rfl⟩ rfl rfl
  | writeGap h => exact .responder h ⟨[.call .writeGap], fun _ => rfl⟩ rfl rfl
  | writeGapErr k h => exact .responder h ⟨[.fail], fun _ => rfl⟩ rfl rfl
  | swapResponder h =>
    exact .responder h ⟨[.swapInner, .closeReady], fun _ => rfl⟩ rfl rfl
  | cancelResponder h => exact .responder h ⟨[.cancelRead], fun _ => rfl⟩ rfl rfl

theorem maps_callers (x : Role) (i : Path) :
    (machine L).Maps (Callers.machine Unit i) (fun _ => True) (callers x) :=
  maps_of_steps (fun _ _ _ _ _ => trivial) fun _ _ _ _ hst =>
    ⟨(), moves_callers (step_moves hst), fun _ hj => absurd rfl hj⟩

end Migrate

/-! ## Models made of threads -/

/-- Threads of which each step is one of a caller: `inner` is the wrapper's, `pc` says where a
thread stands, and nobody starts inside of a caller. -/
theorem maps_of_threads {σ τ γ ε S : Type} (P : Program σ τ γ ε) (s₀ : σ) (Q : σ → Prop)
    (inner : σ → S) (pc : τ → Pc S) (i : S) (hidle : ∀ s c, P.next s P.idle c = none)
    (hout : pc P.idle = .outside) (hentry : ∀ s t, P.entry s t = true → pc t = .outside)
    (hkeeps : ∀ s t c t' e, Q s → P.next s t c = some (t', e) → Q (P.effect e s))
    (hstep : ∀ s t c t' e, Q s → P.next s t c = some (t', e) →
      Steps (inner s) (pc t) (inner (P.effect e s)) (pc t')) :
    (P.machine s₀).Maps (Callers.machine ℕ i) (fun p => (P.machine s₀).Reach p ∧ Q p.shared)
      fun p => ⟨inner p.shared, fun j => pc (p.threads j)⟩ := by
  refine maps_of_steps (fun p a p' hp hst => ⟨hp.1.step hst, ?_⟩) fun p a p' hp hst => ?_
  · rcases a with t | ⟨j, c⟩
    · obtain ⟨-, rfl⟩ := Program.start_cases hst
      exact hp.2
    · obtain ⟨t, e, hn, rfl⟩ := Program.run_cases hst
      exact hkeeps _ _ _ _ _ hp.2 hn
  · rcases a with t | ⟨j, c⟩
    · obtain ⟨he, rfl⟩ := Program.start_cases hst
      -- The thread that is started was idle.
      have hbefore := Program.idle_of_count_le hidle hp.1 p.count (Nat.le_refl _)
      refine ⟨p.count, .same rfl ?_, fun k hk => ?_⟩
      · simp [hbefore, hout, hentry _ t he]
      · simp [hk]
    · obtain ⟨t, e, hn, rfl⟩ := Program.run_cases hst
      refine ⟨j, ?_, fun k hk => ?_⟩
      · simpa using hstep _ _ _ _ _ hp.2 hn
      · simp [hk]

/-! ## `Session/Model.lean`: all three, on a wrapper of a session -/

namespace Session

variable {ID : Type} [DecidableEq ID] {gen : ℕ → ID} {s : Shared ID} {t t' : Task ID}
  {e : Effect ID} {w : Ref}

/-- What a goroutine does to the wrapper `w`. -/
def Task.callers (w : Ref) : Task ID → Pc TStream
  | .reconnectResume _ v _ st => if v = w then .before .resume st .resumePayload else .outside
  | .migrateOpened v st => if v = w then .before .migrateToDirect st .resumePayload else .outside
  | .directFound v st =>
    if v = w then .before .handleDirectStream st .retransmitFrom else .outside
  | _ => .outside

def callers (w : Ref) (p : Program.Pool (Shared ID) (Task ID)) : State ℕ TStream :=
  ⟨(p.shared.wraps w).inner, fun i => (p.threads i).callers w⟩

theorem effect_inner (hw : w < s.nextWrap) (he : ∀ st, e ≠ .swapInner w st) :
    ((effect e s).wraps w).inner = (s.wraps w).inner := by
  cases e with
  | wrapStream id inner dialed => simp [effect, Shared.setWrap, Nat.ne_of_lt hw]
  | markAbandoned v => exact setWrap_part Wrapper.inner (by rfl) w
  | swapInner v st =>
    have hv : w ≠ v := by
      rintro rfl
      exact he st rfl
    simp [effect, Shared.setWrap, hv]
  | _ => rfl

theorem effect_markFound_inner {found : Option Ref} (hw : w < s.nextWrap) :
    ((effect (markFound found) s).wraps w).inner = (s.wraps w).inner := by
  cases found <;> exact effect_inner hw nofun

theorem effect_swapInner (st : TStream) :
    ((effect (.swapInner w st) s).wraps w).inner = st := by
  simp [effect, Shared.setWrap]

/-- A function that is done with the wrapper `v`, which may be `w`. -/
theorem steps_swap {v : Ref} {st : TStream} {pc : Pc TStream} (hw : w < s.nextWrap)
    (h : ∀ inner, Steps inner pc st .outside) :
    Steps (s.wraps w).inner (if v = w then pc else .outside)
      ((effect (.swapInner v st) s).wraps w).inner .outside := by
  by_cases hv : v = w
  · subst hv
    rw [if_pos rfl, effect_swapInner]
    exact h _
  · rw [if_neg hv]
    refine .same (effect_inner hw fun st' heq => hv ?_) rfl
    cases heq
    rfl

/-- A function that is called on the wrapper `v`. -/
theorem steps_enter {v : Ref} {inner inner' : TStream} {pc : Pc TStream} (hinner : inner' = inner)
    (h : Steps inner .outside inner pc) :
    Steps inner .outside inner' (if v = w then pc else .outside) := by
  rw [hinner]
  split
  · exact h
  · exact .same rfl rfl

/-- One that fails. -/
theorem steps_leave {v : Ref} {inner inner' : TStream} {pc : Pc TStream} (hinner : inner' = inner)
    (h : Steps inner pc inner .outside) :
    Steps inner (if v = w then pc else .outside) inner' .outside := by
  rw [hinner]
  split
  · exact h
  · exact .same rfl rfl

theorem moves_callers (hw : w < s.nextWrap) (hm : Moves gen s t t' e) :
    Steps (s.wraps w).inner (t.callers w) ((effect e s).wraps w).inner (t'.callers w) := by
  cases hm with
  | resume => exact steps_enter rfl ⟨[.opened .resume ⟨s.conn, s.nextStream⟩], fun _ => rfl⟩
  | resumed =>
    exact steps_swap hw fun _ => ⟨[.call .resumePayload, .call .writeResume, .call .parseFrame,
      .call .compareID, .call .retransmitFrom, .call .writeGap, .swapInner, .closeReady,
      .cancelRead], fun _ => rfl⟩
  | resumeFailed => exact steps_leave rfl ⟨[.call .resumePayload, .fail], fun _ => rfl⟩
  | migrate => exact steps_enter rfl ⟨[.opened .migrateToDirect _], fun _ => rfl⟩
  | migrated =>
    exact steps_swap hw fun _ => ⟨[.call .resumePayload, .call .writeResume, .swapInner,
      .closeReady, .cancelRead], fun _ => rfl⟩
  | resumeUnsent => exact steps_leave rfl ⟨[.call .resumePayload, .fail], fun _ => rfl⟩
  | direct =>
    exact steps_enter rfl ⟨[.opened .handleDirectStream _, .call .parseFrame, .call .lookup],
      fun _ => rfl⟩
  | directMigrated =>
    exact steps_swap hw fun _ => ⟨[.call .retransmitFrom, .call .writeGap, .swapInner,
      .closeReady, .cancelRead], fun _ => rfl⟩
  | retransmitFailed => exact steps_leave rfl ⟨[.fail], fun _ => rfl⟩
  | openStreamFailed => rename_i ena; cases ena <;> exact .same rfl rfl
  | acceptFailed => rename_i ena; cases ena <;> exact .same rfl rfl
  | incomingWraps => rename_i ena; cases ena <;> exact .same (effect_inner hw nofun) rfl
  | notRegistered => rename_i v; cases v <;> exact .same rfl rfl
  | modeKnown => rename_i v; cases v <;> exact .same rfl rfl
  | closeFound => exact .same (effect_markFound_inner hw) rfl
  | dropFound => exact .same (effect_markFound_inner hw) rfl
  | _ => exact .same (effect_inner hw nofun) rfl

theorem maps_callers [Inhabited ID] (w : Ref) (i : TStream) :
    (machine gen).Maps (Callers.machine ℕ i)
      (fun p => (machine gen).Reach p ∧ w < p.shared.nextWrap) (callers w) := by
  refine maps_of_threads (program gen) initial (fun s => w < s.nextWrap)
    (fun s => (s.wraps w).inner) (Task.callers w) i (fun _ _ => rfl) rfl (fun s t he => ?_)
    (fun s t c t' e hw _ => lt_of_lt_of_le hw (effect_nextWrap_le e s))
    fun s t c t' e hw hn => moves_callers hw (next_moves hn)
  cases t <;> first | rfl | cases he

/-- What the mapping says of a wrapper of a session, from a moment on when nobody is in one of the
functions for it: whatever the goroutines do, its inner stays, or is the stream of one that has made
all its calls. -/
theorem inner_installed [Inhabited ID] {p p' : Program.Pool (Shared ID) (Task ID)}
    (hp : (machine gen).Reach p) (hw : w < p.shared.nextWrap)
    (hout : ∀ i, (p.threads i).callers w = .outside) (hr : (machine gen).ReachFrom p p') :
    ∃ as, (Callers.machine ℕ (p.shared.wraps w).inner).run (callers w p) as =
        some (callers w p') ∧
      ((p'.shared.wraps w).inner = (p.shared.wraps w).inner ∨
        Installed as (p'.shared.wraps w).inner) := by
  obtain ⟨as, has⟩ := (maps_callers w (p.shared.wraps w).inner).run ⟨hp, hw⟩ hr
  refine ⟨as, has, ?_⟩
  have hstart : callers w p = (Callers.machine ℕ (p.shared.wraps w).inner).init := by
    simp [callers, Callers.machine, hout]
  rw [hstart] at has
  exact installed has

end Session

/-! ## `Stream/Wrapper.lean`: all three, on one wrapper -/

namespace Wrapper

variable {ε : Type} {s : Wrap} {t t' : Task ε} {e : Effect}

def Task.callers : Task ε → Pc TStream
  | .resumeOpened st => .before .resume st .resumePayload
  | .migrateOpened st => .before .migrateToDirect st .resumePayload
  | .directAccepted st => .before .handleDirectStream st .parseFrame
  | .directFound st => .before .handleDirectStream st .retransmitFrom
  | .swap st => .swap st
  | .swapped _ _ => .swapped
  | .swapCancel _ => .cancel
  | _ => .outside

def callers (p : Program.Pool Wrap (Task ε)) : State ℕ TStream :=
  ⟨p.shared.inner, fun i => (p.threads i).callers⟩

theorem effect_markAbandoned_inner : (effect .markAbandoned s).inner = s.inner := by
  simp only [effect]
  split
  · rfl
  · unfold Wrap.closeReady
    split <;> rfl

theorem moves_callers (hm : Moves s t t' e) :
    Steps s.inner t.callers (effect e s).inner t'.callers := by
  cases hm with
  | resumeOpens => exact ⟨[.opened .resume s.nextStream], fun _ => rfl⟩
  | resumeSwaps =>
    exact ⟨[.call .resumePayload, .call .writeResume, .call .parseFrame, .call .compareID,
      .call .retransmitFrom, .call .writeGap], fun _ => rfl⟩
  | resumeCloses => exact ⟨[.call .resumePayload, .fail], fun _ => rfl⟩
  | migrateOpens => exact ⟨[.opened .migrateToDirect s.nextStream], fun _ => rfl⟩
  | migrateSwaps => exact ⟨[.call .resumePayload, .call .writeResume], fun _ => rfl⟩
  | migrateCloses => exact ⟨[.call .resumePayload, .fail], fun _ => rfl⟩
  | accepts => exact ⟨[.opened .handleDirectStream s.nextStream], fun _ => rfl⟩
  | directFinds => exact ⟨[.call .parseFrame, .call .lookup], fun _ => rfl⟩
  | directCloses => exact ⟨[.fail], fun _ => rfl⟩
  | directSwaps => exact ⟨[.call .retransmitFrom, .call .writeGap], fun _ => rfl⟩
  | directFails => exact ⟨[.fail], fun _ => rfl⟩
  | swaps => exact ⟨[.swapInner], fun _ => rfl⟩
  | wakesOthers => exact ⟨[.closeReady], fun _ => rfl⟩
  | wakesNone => exact ⟨[.closeReady], fun _ => rfl⟩
  | cancels => exact ⟨[.cancelRead], fun _ => rfl⟩
  | forgetMarks | closeMarks | closeMarksSelf => exact .same effect_markAbandoned_inner rfl
  | _ => exact .same rfl rfl

theorem maps_callers (i : TStream) :
    (machine ε).Maps (Callers.machine ℕ i) (machine ε).Reach callers := by
  have hentry (s : Wrap) (t : Task ε) (he : entry s t = true) : t.callers = .outside := by
    cases t <;> first | rfl | cases he
  have hmaps := maps_of_threads (program ε) initial (fun _ => True) Wrap.inner
    Task.callers i (fun _ _ => rfl) rfl hentry (fun _ _ _ _ _ _ _ => trivial)
    fun _ _ _ _ _ _ hn => moves_callers (next_moves hn)
  exact ⟨fun p a p' hp hst => hp.step hst, fun p a p' hp hst => hmaps.step p a p' ⟨hp, trivial⟩ hst⟩

end Wrapper

/-! ## `Stream/HalfClose.lean`: any number of replacements, and those of the peer -/

namespace Stream

variable {β : Type} {L : ResumeLib β} {s s' : Side L} {a : Act β} {i j : ℕ}

/-- Who has the stream `i`, unless it has been installed or given up. A stream on which the gap is
retransmitted is taken for one of `Resume`. -/
def Inner.callers (i : ℕ) (x : Inner β) : Pc ℕ :=
  if x.installed || x.refused then .outside
  else
    match x.kind, x.start with
    | .announces, _ => .before .migrateToDirect i .resumePayload
    | .retransmits, none => .before .resume i .resumePayload
    | .retransmits, some _ => .swap i

/-- The wrapper that writes. There is one caller for each stream. -/
def callers (s : Side L) : State ℕ ℕ :=
  ⟨s.cur, fun i => if i < s.count then (s.inner i).callers i else .outside⟩

/-- The peer's wrapper. -/
def peerCallers (s : Side L) : State Unit ℕ := ⟨s.peer.cur, fun _ => .outside⟩

/-- A step of the one that has the stream `i`, or of nobody. -/
def Side.Steps (s s' : Side L) : Prop :=
  ∃ i, Callers.Steps s.cur ((callers s).pc i) s'.cur ((callers s').pc i) ∧
    ∀ j, j ≠ i → (callers s').pc j = (callers s).pc j

theorem Side.Steps.same (hcur : s'.cur = s.cur) (hpc : (callers s').pc = (callers s).pc) :
    s.Steps s' :=
  ⟨0, .same hcur (congrFun hpc 0), fun j _ => congrFun hpc j⟩

/-- A step on the stream `i`, from the place `pc` to the place `pc'`. -/
theorem Side.Steps.on {x : Inner β} {pc pc' : Pc ℕ} (hcount : s'.count = s.count)
    (hinner : s'.inner = Function.update s.inner i x) (hlt : i < s.count)
    (hpc : (s.inner i).callers i = pc) (hpc' : x.callers i = pc')
    (h : Callers.Steps s.cur pc s'.cur pc') : s.Steps s' := by
  refine ⟨i, ?_, fun j hj => ?_⟩
  · simpa [callers, hcount, hinner, hlt, hpc, hpc'] using h
  · simp [callers, hcount, hinner, hj]

/-- A change of the stream `i` that its caller has no part in. -/
theorem Side.Steps.still {x : Inner β} (hcur : s'.cur = s.cur) (hcount : s'.count = s.count)
    (hinner : s'.inner = Function.update s.inner i x)
    (hx : x.callers i = (s.inner i).callers i) : s.Steps s' := by
  refine .same hcur (funext fun j => ?_)
  by_cases hj : j = i
  · subst hj
    simp [callers, hcount, hinner, hx]
  · simp [callers, hcount, hinner, hj]

/-- A stream on which the gap can be retransmitted. -/
theorem awaits_callers {peerAck : ℕ} (h : s.awaits i peerAck = true) :
    i < s.count ∧ (s.inner i).kind = .retransmits ∧ (s.inner i).installed = false ∧
      (s.inner i).refused = false ∧
      (s.inner i).callers i = .before .resume i .resumePayload := by
  simp only [Side.awaits, Bool.and_eq_true, decide_eq_true_eq, beq_iff_eq,
    Option.isNone_iff_eq_none, Bool.not_eq_true'] at h
  obtain ⟨⟨⟨⟨⟨hlt, hkind⟩, hstart⟩, hinst⟩, href⟩, -⟩ := h
  exact ⟨hlt, hkind, hinst, href, by simp [Inner.callers, hkind, hstart, hinst, href]⟩

/-- A stream that has been installed or given up. -/
theorem callers_outside {x : Inner β} (h : (x.installed || x.refused) = true) :
    x.callers i = .outside := if_pos h

theorem moves_openStream (k : Kind) :
    s.Steps { s.setInner s.count { kind := k } with count := s.count + 1 } := by
  refine ⟨s.count, ?_, fun j hj => ?_⟩
  · cases k
    · exact ⟨[.opened .resume s.count], fun _ => by simp [callers, Side.setInner]; rfl⟩
    · exact ⟨[.opened .migrateToDirect s.count], fun _ => by simp [callers, Side.setInner]; rfl⟩
  · have hlt : (j < s.count + 1) = (j < s.count) := by
      refine propext ⟨fun h => ?_, Nat.lt_succ_of_lt⟩
      exact Nat.lt_of_le_of_ne (Nat.le_of_lt_succ h) hj
    simp only [callers, Side.setInner, Function.update_of_ne hj, hlt]

/-- What is ready stands at `SwapInner`, or has only to announce the positions. -/
theorem moves_swapInner (hready : s.ready i = true) : s.Steps (s.install i) := by
  simp only [Side.ready, Bool.and_eq_true, Bool.or_eq_true, decide_eq_true_eq, beq_iff_eq,
    Bool.not_eq_true'] at hready
  obtain ⟨⟨⟨hlt, hinst⟩, href⟩, hkind⟩ := hready
  refine .on rfl rfl hlt rfl (callers_outside rfl) ?_
  unfold Inner.callers
  rw [hinst, href]
  cases hk : (s.inner i).kind with
  | announces =>
    exact ⟨[.call .resumePayload, .call .writeResume, .swapInner, .closeReady, .cancelRead],
      fun _ => rfl⟩
  | retransmits =>
    obtain ⟨p, hp⟩ := Option.isSome_iff_exists.mp (hkind.resolve_left (by simp [hk]))
    rw [hp]
    exact ⟨[.swapInner, .closeReady, .cancelRead], fun _ => rfl⟩

theorem moves_giveUp (hlt : i < s.count) (hinst : (s.inner i).installed = false)
    (hstart : (s.inner i).start = none) :
    s.Steps (s.setInner i { s.inner i with refused := true }) := by
  refine .on rfl rfl hlt rfl (callers_outside (Bool.or_true _)) ?_
  unfold Inner.callers
  rw [hinst, hstart]
  cases (s.inner i).refused with
  | true => exact .same rfl rfl
  | false =>
    cases (s.inner i).kind <;> exact ⟨[.call .resumePayload, .fail], fun _ => rfl⟩

theorem moves_callers (hm : Moves s a s') : s.Steps s' := by
  cases hm with
  | read | checkpoint | closeWrite => exact .same rfl rfl
  | peerCapture | peerRead | peerEof | peerErr | peerSwap => exact .same rfl rfl
  | write | fail => exact .still rfl rfl rfl rfl
  | closeInner =>
    refine .still rfl rfl rfl ?_
    split <;> rfl
  | openStream k => exact moves_openStream k
  | retransmit i peerAck hawaits =>
    obtain ⟨hlt, hkind, hinst, href, hpc⟩ := awaits_callers hawaits
    refine .on rfl rfl hlt hpc (?_ : _ = Pc.swap i) ?_
    · simp [Inner.callers, hkind, hinst, href]
    · exact ⟨[.call .resumePayload, .call .writeResume, .call .parseFrame, .call .compareID,
        .call .retransmitFrom, .call .writeGap], fun _ => rfl⟩
  | evicted i peerAck hawaits =>
    obtain ⟨hlt, -, -, -, hpc⟩ := awaits_callers hawaits
    refine .on rfl rfl hlt hpc (callers_outside (Bool.or_true _)) ?_
    exact ⟨[.call .resumePayload, .call .writeResume, .call .parseFrame, .call .compareID, .fail],
      fun _ => rfl⟩
  | retransmitErr i peerAck k hawaits =>
    obtain ⟨hlt, -, -, -, hpc⟩ := awaits_callers hawaits
    refine .on rfl rfl hlt hpc (callers_outside (Bool.or_true _)) ?_
    exact ⟨[.call .resumePayload, .call .writeResume, .call .parseFrame, .call .compareID,
      .call .retransmitFrom, .fail], fun _ => rfl⟩
  | swapInner i hready => exact moves_swapInner hready
  | giveUp i hlt hout hstart => exact moves_giveUp hlt hout hstart

theorem maps_callers (i : ℕ) :
    (machine L).Maps (Callers.machine ℕ i) (fun _ => True) callers :=
  maps_of_steps (fun _ _ _ _ _ => trivial) fun _ _ _ _ hst => moves_callers (step_moves hst)

/-- The peer's `SwapInner` is one step, with all that comes before it. -/
theorem maps_peerCallers (i : ℕ) :
    (machine L).Maps (Callers.machine Unit i) (fun _ => True) peerCallers := by
  refine maps_of_steps (fun _ _ _ _ _ => trivial) fun s a s' _ hst =>
    ⟨(), ?_, fun _ hj => absurd rfl hj⟩
  cases step_moves hst with
  | peerSwap i =>
    exact ⟨[.opened .migrateToDirect i, .call .resumePayload, .call .writeResume, .swapInner,
      .closeReady, .cancelRead], fun _ => rfl⟩
  | _ => exact .same rfl rfl

end Stream

/-! ## `Direct/Release.lean`: `MigrateToDirect` on a promoted stream -/

namespace Release

variable {w w' : World} {a : Act} {k : ℕ}

def Task.callers : Task → Pc Inner
  | .resuming => .before .migrateToDirect .direct .resumePayload
  | .swapping => .swap .direct
  | _ => .outside

def callers (k : ℕ) (w : World) : State Unit Inner :=
  ⟨(w.streams k).inner, fun _ => (w.streams k).task.callers⟩

theorem closeInner_task (s : Stream) : s.closeInner.task = s.task := by
  unfold Stream.closeInner
  split <;> rfl

theorem tryPromote_callers {s s' : Stream} {ok : Bool} (h : s.tryPromote ok = some s') :
    Steps s.inner s.task.callers s'.inner s'.task.callers := by
  unfold Stream.tryPromote at h
  split at h <;> cases h <;> rename_i ht <;> rw [ht]
  · exact .same rfl rfl
  · exact .same rfl rfl
  · exact .same rfl rfl
  · exact .same rfl rfl
  · exact ⟨[.opened .migrateToDirect .direct], fun _ => rfl⟩
  · exact .same rfl rfl
  · exact ⟨[.call .resumePayload, .call .writeResume], fun _ => rfl⟩
  · exact ⟨[.call .resumePayload, .fail], fun _ => rfl⟩
  · exact ⟨[.swapInner, .closeReady, .cancelRead], fun _ => rfl⟩
  · exact .same rfl rfl

theorem next_callers {s s' : Stream} {e : Event} (h : s.next e = some s') :
    Steps s.inner s.task.callers s'.inner s'.task.callers := by
  have hclose : Steps s.inner s.task.callers s.closeInner.inner s.closeInner.task.callers :=
    .same (Stream.closeInner_same s).1 (congrArg Task.callers (closeInner_task s))
  rcases Stream.next_cases h with rfl | rfl | rfl | ⟨ok, -, h⟩
  · exact .same rfl rfl
  · exact hclose
  · exact hclose
  · exact tryPromote_callers h

theorem maps_callers (k : ℕ) (i : Inner) :
    machine.Maps (Callers.machine Unit i) (fun w => k < w.count) (callers k) := by
  refine maps_of_steps (fun w a w' hk hst => ?_) fun w a w' hk hst =>
    ⟨(), ?_, fun _ hj => absurd rfl hj⟩
  · cases a with
    | dial =>
      cases hst
      exact Nat.lt_succ_of_lt hk
    | stream j e =>
      obtain ⟨s, -, rfl⟩ := Option.map_eq_some_iff.mp hst
      exact hk
  · cases a with
    | dial =>
      cases hst
      refine .same ?_ ?_ <;> simp [callers, Nat.ne_of_lt hk]
    | stream j e =>
      obtain ⟨s, hs, rfl⟩ := Option.map_eq_some_iff.mp hst
      by_cases hj : k = j
      · subst hj
        simpa [callers] using next_callers hs
      · refine .same ?_ ?_ <;> simp [callers, hj]

end Release

end OutRelayAgent
