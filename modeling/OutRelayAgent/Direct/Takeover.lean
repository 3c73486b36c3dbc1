import OutRelayAgent.Lib.Machine
import OutRelayAgent.Lib.Table
import OutRelayAgent.Resume.State

/-!
# Who can move a stream to a direct connection

Model of `AcceptDirect`, `acceptDirectStreams` and `handleDirectStream` (`promote.go:478-558`)
against what the session does with its streams meanwhile.

* **A direct stream** comes from any agent with a certificate of the cluster's CA
  (`main.go:522-546`: "every legitimate dialer is another agent issued by the same CA"). Its first
  frame is anything that agent likes to send.
* **`handleDirectStream`** looks the frame's stream id up in `s.streams`, asks that stream's ring
  for the bytes from the frame's ack position on, writes them to the direct stream, and makes it the
  stream's inner. Each of these is a step. A write that fails may have written a part.
* **The session** opens and drops streams, and reads, writes, checkpoints and moves them.

The agent that dialled is not looked at: a stream is matched by its id alone, as the comment on
`AcceptDirect` says. So an agent that knows the id of a stream can take it over, and gets its bytes.

* `takeover_by_id`: a direct stream gets bytes of a stream, or becomes its inner, only if its frame
  names the id of that stream and the stream was active when the id was looked up. As long as no
  frame names an id, the streams of that id are as if there were no direct streams at all, and what
  is sent on direct streams does not depend on them.
* `foreign_agent_takes_over`: the agent at the other end is another one.
-/

namespace OutRelayAgent.Takeover

open Lib

/-- A `ResumableStream`: the id it was made with, and a number. -/
structure Ref (ID : Type) where
  id : ID
  serial : ℕ
  deriving DecidableEq

/-- What carries a stream: a stream by way of the relay, or a direct one. -/
inductive Link
  | relay (n : ℕ)
  | direct (i : ℕ)
  deriving DecidableEq

/-- `peer` is the agent at the other end, which the session does not record; no step reads it. -/
structure Wrapper {β : Type} (L : ResumeLib β) where
  state : L.State
  inner : Link
  peer : ℕ

/-- The first frame of a direct stream. -/
inductive Frame (ID : Type)
  | unreadable
  /-- Of another type than `STREAM_RESUME`. -/
  | other
  /-- `STREAM_RESUME` with a payload that does not decode. -/
  | garbled
  | resume (id : ID) (myPosition peerAckPosition : ℕ)

/-- Where `handleDirectStream` stands. -/
inductive Stage (ID β : Type)
  | accepted
  | found (v : Ref ID) (ack : ℕ)
  | writing (v : Ref ID) (gap : List β)
  | swapping (v : Ref ID)
  | migrated
  | closed

/-- A direct stream: who has opened it, its first frame, and what has been written to it. -/
structure Direct (ID β : Type) where
  agent : ℕ
  frame : Frame ID
  stage : Stage ID β
  out : List β

structure World (ID : Type) {β : Type} (L : ResumeLib β) where
  streams : AList fun _ : ID => Ref ID
  wraps : Ref ID → Wrapper L
  nextSerial : ℕ
  directs : ℕ → Direct ID β
  count : ℕ

/-- What the session does with a stream. -/
inductive Op (β : Type)
  | write (bs : List β)
  | read (n : ℕ)
  | checkpoint (p : ℕ)
  /-- `Resume` puts it on another stream of the relay. -/
  | move (n : ℕ)

inductive Choice
  | ok
  /-- The write fails after `n` bytes. -/
  | err (n : ℕ)

inductive Act (ID β : Type)
  | wrapStream (id : ID) (peer : ℕ)
  | forgetStream (id : ID)
  | app (v : Ref ID) (op : Op β)
  | accept (agent : ℕ) (frame : Frame ID)
  | direct (i : ℕ) (c : Choice)

variable {ID β : Type} [DecidableEq ID] {L : ResumeLib β}

def Wrapper.apply (r : Wrapper L) : Op β → Wrapper L
  | .write bs => { r with state := L.onWrite r.state bs }
  | .read n => { r with state := L.onRead r.state n }
  | .checkpoint p => { r with state := L.onCheckpointFromPeer r.state p }
  | .move n => { r with inner := .relay n }

/-- `handleDirectStream`, for the direct stream `i`: the wrappers, and where it goes on. -/
def handleNext (w : World ID L) (i : ℕ) (d : Direct ID β) :
    Stage ID β → Choice → Option ((Ref ID → Wrapper L) × Direct ID β)
  | .accepted, .ok =>
    match d.frame with
    | .resume id _ ack =>
      match w.streams.lookup id with
      | some v => some (w.wraps, { d with stage := .found v ack })
      | none => some (w.wraps, { d with stage := .closed })
    | _ => some (w.wraps, { d with stage := .closed })
  | .found v ack, .ok =>
    match L.retransmitFrom (w.wraps v).state ack with
    | some gap => some (w.wraps, { d with stage := .writing v gap })
    | none => some (w.wraps, { d with stage := .closed })
  | .writing v gap, .ok => some (w.wraps, { d with stage := .swapping v, out := d.out ++ gap })
  | .writing _ gap, .err n =>
    some (w.wraps, { d with stage := .closed, out := d.out ++ gap.take n })
  | .swapping v, .ok =>
    some (Function.update w.wraps v { w.wraps v with inner := .direct i },
      { d with stage := .migrated })
  | _, _ => none

def step (w : World ID L) : Act ID β → Option (World ID L)
  | .wrapStream id peer =>
    some { w with
      streams := w.streams.insert id ⟨id, w.nextSerial⟩
      wraps := Function.update w.wraps ⟨id, w.nextSerial⟩ ⟨L.newState, .relay w.nextSerial, peer⟩
      nextSerial := w.nextSerial + 1 }
  | .forgetStream id => some { w with streams := w.streams.erase id }
  | .app v op => some { w with wraps := Function.update w.wraps v ((w.wraps v).apply op) }
  | .accept agent frame =>
    some { w with
      directs := Function.update w.directs w.count ⟨agent, frame, .accepted, []⟩
      count := w.count + 1 }
  | .direct i c =>
    match handleNext w i (w.directs i) (w.directs i).stage c with
    | some (wraps, d) => some { w with wraps := wraps, directs := Function.update w.directs i d }
    | none => none

/-- A session without streams. -/
def machine (ID : Type) [DecidableEq ID] {β : Type} (L : ResumeLib β) :
    Machine (World ID L) (Act ID β) where
  init :=
    { streams := ∅
      wraps := fun _ => ⟨L.newState, .relay 0, 0⟩
      nextSerial := 0
      directs := fun _ => ⟨0, .unreadable, .closed, []⟩
      count := 0 }
  step := step

/-! ## The properties -/

/-- The stream a handler works on. -/
def Stage.target : Stage ID β → Option (Ref ID)
  | .found v _ | .writing v _ | .swapping v => some v
  | _ => none

/-- The frame names the stream. -/
def Frame.namesId (f : Frame ID) (id : ID) : Prop := ∃ pos ack, f = .resume id pos ack

/-- A step of the handler of the direct stream `i` is confined to the stream its frame names. -/
structure Confined (w w' : World ID L) (i : ℕ) : Prop where
  /-- The stream it goes to work on is the active stream of that id. -/
  active : ∀ v, (w'.directs i).stage.target = some v → (w.directs i).stage.target = none →
    (w.directs i).frame.namesId v.id ∧ w.streams.lookup v.id = some v
  /-- The bytes it gets ready are those of that stream's ring. -/
  gap : ∀ v gap, (w'.directs i).stage = .writing v gap → (w.directs i).frame.namesId v.id ∧
    ∃ ack, L.retransmitFrom (w.wraps v).state ack = some gap
  /-- What it writes are bytes it has got ready. -/
  out : (w'.directs i).out ≠ (w.directs i).out → ∃ v gap, (w.directs i).stage = .writing v gap ∧
    ∃ part, part <+: gap ∧ (w'.directs i).out = (w.directs i).out ++ part
  /-- A stream it changes is that stream, and only the inner changes. -/
  wraps : ∀ v, w'.wraps v ≠ w.wraps v → (w.directs i).frame.namesId v.id ∧
    w'.wraps v = { w.wraps v with inner := .direct i }
  /-- The table and the other direct streams stay. -/
  rest : w'.streams = w.streams ∧ ∀ j, j ≠ i → w'.directs j = w.directs j

/-- A direct stream whose frame names `k`. -/
def Act.names (k : ID) : Act ID β → Bool
  | .accept _ (.resume id _ _) => id = k
  | _ => false

/-- Direct streams. -/
def Act.isDirect : Act ID β → Bool
  | .accept _ _ | .direct _ _ => true
  | _ => false

/-- The same but for what the session does with streams of the id `k`, which no frame names. -/
inductive SameAct (k : ID) : Act ID β → Act ID β → Prop
  | same {a : Act ID β} : a.names k = false → SameAct k a a
  | secret {v : Ref ID} {op op' : Op β} : v.id = k → SameAct k (.app v op) (.app v op')

/-! ## What a handler can do -/

inductive Handles (w : World ID L) (i : ℕ) (d : Direct ID β) :
    Stage ID β → (Ref ID → Wrapper L) → Direct ID β → Prop
  | finds {id pos ack v} : d.frame = .resume id pos ack → w.streams.lookup id = some v →
      Handles w i d .accepted w.wraps { d with stage := .found v ack }
  | rejects {st} : Handles w i d st w.wraps { d with stage := .closed }
  | gets {v ack gap} : L.retransmitFrom (w.wraps v).state ack = some gap →
      Handles w i d (.found v ack) w.wraps { d with stage := .writing v gap }
  | writes {v gap} :
      Handles w i d (.writing v gap) w.wraps { d with stage := .swapping v, out := d.out ++ gap }
  | breaks {v gap n} :
      Handles w i d (.writing v gap) w.wraps
        { d with stage := .closed, out := d.out ++ gap.take n }
  | swaps {v} :
      Handles w i d (.swapping v) (Function.update w.wraps v { w.wraps v with inner := .direct i })
        { d with stage := .migrated }

variable {w w' w₁ w₂ : World ID L} {i : ℕ} {d d' : Direct ID β} {st : Stage ID β} {c : Choice}
  {wraps : Ref ID → Wrapper L} {a b : Act ID β} {k : ID}

theorem handleNext_handles (h : handleNext w i d st c = some (wraps, d')) :
    Handles w i d st wraps d' := by
  unfold handleNext at h
  split at h
  · split at h
    · rename_i id pos ack hframe
      split at h
      · rename_i v hv
        cases h
        exact .finds hframe hv
      · cases h
        exact .rejects
    · cases h
      exact .rejects
  · split at h
    · rename_i gap hgap
      cases h
      exact .gets hgap
    · cases h
      exact .rejects
  · cases h
    exact .writes
  · cases h
    exact .breaks
  · cases h
    exact .swaps
  · cases h

theorem direct_cases (h : step w (.direct i c) = some w') :
    ∃ wraps d, Handles w i (w.directs i) (w.directs i).stage wraps d ∧
      w' = { w with wraps := wraps, directs := Function.update w.directs i d } := by
  simp only [step] at h
  split at h
  · rename_i wraps d hn
    cases h
    exact ⟨wraps, d, handleNext_handles hn, rfl⟩
  · cases h

/-! ## A handler works on the stream its frame names -/

structure Named (w : World ID L) : Prop where
  /-- `s.streams` names streams by their ids. -/
  keyed : ∀ id v, w.streams.lookup id = some v → v.id = id
  target : ∀ i v, (w.directs i).stage.target = some v → (w.directs i).frame.namesId v.id

theorem Handles.target (hkey : ∀ id v, w.streams.lookup id = some v → v.id = id)
    (ht : ∀ v, st.target = some v → d.frame.namesId v.id) (h : Handles w i d st wraps d') :
    d'.frame = d.frame ∧ ∀ v, d'.stage.target = some v → d.frame.namesId v.id := by
  cases h with
  | finds hframe hv =>
    refine ⟨rfl, fun v hv' => ?_⟩
    cases hv'
    rw [hkey _ _ hv]
    exact ⟨_, _, hframe⟩
  | gets hgap => exact ⟨rfl, fun v hv => ht v hv⟩
  | writes => exact ⟨rfl, fun v hv => ht v hv⟩
  | _ => exact ⟨rfl, nofun⟩

theorem named_step (h : Named w) (hst : step w a = some w') : Named w' := by
  cases a with
  | wrapStream id peer =>
    cases hst
    exact ⟨forall_lookup_insert h.keyed rfl, h.target⟩
  | forgetStream id =>
    cases hst
    exact ⟨forall_lookup_erase h.keyed, h.target⟩
  | app v op =>
    cases hst
    exact ⟨h.keyed, h.target⟩
  | accept agent frame =>
    cases hst
    refine ⟨h.keyed, fun j v hv => ?_⟩
    rcases eq_or_ne j w.count with rfl | hne
    · simp [Stage.target] at hv
    · simpa [hne] using h.target j v (by simpa [hne] using hv)
  | direct i c =>
    obtain ⟨wraps, d, hm, rfl⟩ := direct_cases hst
    obtain ⟨hframe, htarget⟩ := hm.target h.keyed (h.target i)
    refine ⟨h.keyed, fun j v hv => ?_⟩
    rcases eq_or_ne j i with rfl | hne
    · simpa [hframe] using htarget v (by simpa using hv)
    · simpa [hne] using h.target j v (by simpa [hne] using hv)

theorem reach_named (h : (machine ID L).Reach w) : Named w := by
  refine Machine.Reach.invariant (M := machine ID L) ⟨fun id v hv => ?_, nofun⟩
    (fun w a w' hw hst => named_step hw hst) h
  simp [machine] at hv

theorem Handles.active (hkey : ∀ id v, w.streams.lookup id = some v → v.id = id)
    (h : Handles w i d st wraps d') {v : Ref ID} (hv : d'.stage.target = some v)
    (hnone : st.target = none) : w.streams.lookup v.id = some v := by
  cases h with
  | finds hframe hlookup =>
    cases hv
    rw [hkey _ _ hlookup]
    exact hlookup
  | gets | writes => cases hnone
  | _ => cases hv

theorem Handles.gap (h : Handles w i d st wraps d') {v : Ref ID} {gap : List β}
    (hv : d'.stage = .writing v gap) :
    st.target = some v ∧ ∃ ack, L.retransmitFrom (w.wraps v).state ack = some gap := by
  cases h with
  | gets hgap =>
    cases hv
    exact ⟨rfl, _, hgap⟩
  | _ => cases hv

theorem Handles.out (h : Handles w i d st wraps d') (hne : d'.out ≠ d.out) :
    ∃ v gap, st = .writing v gap ∧ ∃ part, part <+: gap ∧ d'.out = d.out ++ part := by
  cases h with
  | writes => exact ⟨_, _, rfl, _, List.prefix_rfl, rfl⟩
  | breaks => exact ⟨_, _, rfl, _, List.take_prefix _ _, rfl⟩
  | _ => exact absurd rfl hne

theorem Handles.wraps_eq (h : Handles w i d st wraps d') (v : Ref ID) :
    wraps v = w.wraps v ∨ st.target = some v ∧ wraps v = { w.wraps v with inner := .direct i } := by
  cases h with
  | @swaps u =>
    rcases eq_or_ne v u with rfl | hne
    · exact .inr ⟨rfl, by simp⟩
    · exact .inl (by simp [hne])
  | _ => exact .inl rfl

theorem confined_step (h : Named w) (hst : step w (.direct i c) = some w') : Confined w w' i := by
  obtain ⟨wraps, d, hm, rfl⟩ := direct_cases hst
  obtain ⟨-, htarget⟩ := hm.target h.keyed (h.target i)
  refine ⟨fun v hv hnone => ?_, fun v gap hv => ?_, fun hne => ?_, fun v hne => ?_, rfl,
    fun j hj => by simp [hj]⟩
  · simp only [Function.update_self] at hv
    exact ⟨htarget v hv, hm.active h.keyed hv hnone⟩
  · simp only [Function.update_self] at hv
    obtain ⟨hv', hgap⟩ := hm.gap hv
    exact ⟨h.target i v hv', hgap⟩
  · simp only [Function.update_self] at hne ⊢
    exact hm.out hne
  · obtain ⟨hv, heq⟩ := (hm.wraps_eq v).resolve_left hne
    exact ⟨h.target i v hv, heq⟩

/-! ## Streams no frame names -/

/-- No frame has named `k` so far. -/
structure Unnamed (k : ID) (w : World ID L) : Prop extends Named w where
  frames : ∀ i, ¬ (w.directs i).frame.namesId k

theorem Unnamed.target_ne (h : Unnamed k w) {v : Ref ID}
    (hv : (w.directs i).stage.target = some v) : v.id ≠ k := by
  rintro rfl
  exact h.frames i (h.target i v hv)

theorem unnamed_step (h : Unnamed k w) (ha : a.names k = false) (hst : step w a = some w') :
    Unnamed k w' := by
  refine ⟨named_step h.toNamed hst, fun j => ?_⟩
  cases a with
  | accept agent frame =>
    cases hst
    rcases eq_or_ne j w.count with rfl | hne
    · simp only [Function.update_self]
      rintro ⟨pos, ack, rfl⟩
      simp [Act.names] at ha
    · simpa [hne] using h.frames j
  | direct i c =>
    obtain ⟨wraps, d, hm, rfl⟩ := direct_cases hst
    rcases eq_or_ne j i with rfl | hne
    · simpa [(hm.target h.keyed (h.target j)).1] using h.frames j
    · simpa [hne] using h.frames j
  | _ =>
    cases hst
    exact h.frames j

/-- Wrappers that agree on some streams still do after an update of one. -/
theorem update_agrees {P : Ref ID → Prop} {f g : Ref ID → Wrapper L} {x y : Wrapper L} {u : Ref ID}
    (h : ∀ v, P v → f v = g v) (hu : P u → x = y) :
    ∀ v, P v → Function.update f u x v = Function.update g u y v := by
  intro v hv
  rcases eq_or_ne v u with rfl | hne
  · simpa using hu hv
  · simpa [hne] using h v hv

/-- The streams of the id `k` are the same. -/
structure Alike (k : ID) (w w' : World ID L) : Prop where
  streams : w'.streams = w.streams
  nextSerial : w'.nextSerial = w.nextSerial
  wraps : ∀ v, v.id = k → w'.wraps v = w.wraps v

/-- A direct stream does nothing to them. -/
theorem alike_direct (h : Unnamed k w) (ha : a.isDirect = true) (hst : step w a = some w') :
    Alike k w' w := by
  cases a with
  | accept agent frame =>
    cases hst
    exact ⟨rfl, rfl, fun _ _ => rfl⟩
  | direct i c =>
    obtain ⟨wraps, d, hm, rfl⟩ := direct_cases hst
    refine ⟨rfl, rfl, fun v hv => ?_⟩
    rcases hm.wraps_eq v with heq | ⟨htarget, -⟩
    · exact heq.symm
    · exact absurd hv (h.target_ne htarget)
  | _ => cases ha

/-- What the session does is the same to them with and without direct streams. -/
theorem alike_step (h : Alike k w w₁) (ha : a.isDirect = false) (hst : step w a = some w') :
    ∃ w₂, step w₁ a = some w₂ ∧ Alike k w' w₂ := by
  cases a with
  | wrapStream id peer =>
    cases hst
    refine ⟨_, rfl, by simp [h.streams, h.nextSerial], by simp [h.nextSerial], ?_⟩
    simp only [h.nextSerial]
    exact update_agrees h.wraps fun _ => rfl
  | forgetStream id =>
    cases hst
    exact ⟨_, rfl, by simp [h.streams], h.nextSerial, h.wraps⟩
  | app u op =>
    cases hst
    exact ⟨_, rfl, h.streams, h.nextSerial, update_agrees h.wraps fun hu => by rw [h.wraps u hu]⟩
  | accept | direct => cases ha

/-- The same but for the streams of the id `k`. -/
structure Low (k : ID) (w w' : World ID L) : Prop where
  streams : w'.streams = w.streams
  nextSerial : w'.nextSerial = w.nextSerial
  directs : w'.directs = w.directs
  count : w'.count = w.count
  wraps : ∀ v, v.id ≠ k → w'.wraps v = w.wraps v

/-- A handler of a frame that names another id does the same in both. -/
theorem handleNext_low (h : Low k w w₁) (htarget : ∀ v, st.target = some v → v.id ≠ k)
    (hn : handleNext w i d st c = some (wraps, d')) :
    ∃ wraps₁, handleNext w₁ i d st c = some (wraps₁, d') ∧ ∀ v, v.id ≠ k → wraps₁ v = wraps v := by
  have hwraps : ∀ v, v.id ≠ k → w₁.wraps v = w.wraps v := h.wraps
  unfold handleNext at hn ⊢
  rw [h.streams]
  split at hn
  · -- The table is the same, so the same stream is found.
    split at hn
    · split at hn
      · cases hn
        exact ⟨_, rfl, hwraps⟩
      · cases hn
        exact ⟨_, rfl, hwraps⟩
    · cases hn
      exact ⟨_, rfl, hwraps⟩
  · rename_i v ack
    -- The ring is that of a stream with another id.
    simp only [hwraps v (htarget v rfl)]
    split at hn
    · cases hn
      exact ⟨_, rfl, hwraps⟩
    · cases hn
      exact ⟨_, rfl, hwraps⟩
  · cases hn
    exact ⟨_, rfl, hwraps⟩
  · cases hn
    exact ⟨_, rfl, hwraps⟩
  · rename_i v
    cases hn
    exact ⟨_, rfl, update_agrees hwraps fun hv => by rw [hwraps v hv]⟩
  · cases hn

theorem low_step (hu : Unnamed k w) (h : Low k w w₁) (hs : SameAct k a b)
    (hst : step w a = some w') : ∃ w₂, step w₁ b = some w₂ ∧ Low k w' w₂ := by
  cases hs with
  | secret hv =>
    rename_i u op op'
    cases hst
    exact ⟨_, rfl, h.streams, h.nextSerial, h.directs, h.count,
      update_agrees h.wraps fun hu => absurd hv hu⟩
  | same ha =>
    cases a with
    | wrapStream id peer =>
      cases hst
      refine ⟨_, rfl, by simp [h.streams, h.nextSerial], by simp [h.nextSerial], h.directs, h.count,
        ?_⟩
      simp only [h.nextSerial]
      exact update_agrees h.wraps fun _ => rfl
    | forgetStream id =>
      cases hst
      exact ⟨_, rfl, by simp [h.streams], h.nextSerial, h.directs, h.count, h.wraps⟩
    | app u op =>
      cases hst
      exact ⟨_, rfl, h.streams, h.nextSerial, h.directs, h.count,
        update_agrees h.wraps fun hu => by rw [h.wraps u hu]⟩
    | accept agent frame =>
      cases hst
      exact ⟨_, rfl, h.streams, h.nextSerial, by simp [h.directs, h.count], by simp [h.count],
        h.wraps⟩
    | direct i c =>
      simp only [step] at hst
      split at hst
      · rename_i wraps d hn
        cases hst
        obtain ⟨wraps₁, hn₁, hwraps⟩ := handleNext_low h (fun v hv => hu.target_ne hv) hn
        refine ⟨{ w₁ with wraps := wraps₁, directs := Function.update w₁.directs i d }, ?_,
          h.streams, h.nextSerial, by simp [h.directs], h.count, hwraps⟩
        simp [step, h.directs, hn₁]
      · cases hst

/-! ## The results -/

theorem unnamed_init : Unnamed k (machine ID L).init :=
  ⟨⟨fun id v hv => by simp [machine] at hv, nofun⟩, nofun⟩

/-- With and without the direct streams. -/
theorem untouched {as : List (Act ID β)} (has : ∀ a ∈ as, a.names k = false)
    (hrun : (machine ID L).run (machine ID L).init as = some w) :
    ∃ w', (machine ID L).run (machine ID L).init (as.filter fun a => !a.isDirect) = some w' ∧
      w'.streams = w.streams ∧ ∀ v, v.id = k → w'.wraps v = w.wraps v := by
  obtain ⟨w', hrun', -, h⟩ := Machine.run_filter (M := machine ID L)
    (R := fun w w₁ => Unnamed k w ∧ Alike k w w₁) (P := fun a => a.names k = false)
    (fun a => !a.isDirect)
    (fun ⟨hu, h⟩ ha hk hst => by
      obtain ⟨w₂, hst', h'⟩ := alike_step h (by simpa using hk) hst
      exact ⟨w₂, hst', unnamed_step hu ha hst, h'⟩)
    (fun ⟨hu, h⟩ ha hk hst => by
      have h' := alike_direct hu (by simpa using hk) hst
      exact ⟨unnamed_step hu ha hst, h.streams.trans h'.streams,
        h.nextSerial.trans h'.nextSerial, fun v hv => (h.wraps v hv).trans (h'.wraps v hv)⟩)
    has ⟨unnamed_init, rfl, rfl, fun _ _ => rfl⟩ hrun
  exact ⟨w', hrun', h.streams, h.wraps⟩

theorem SameAct.names_eq_false (h : SameAct k a b) : a.names k = false := by
  cases h with
  | same ha => exact ha
  | secret => rfl

/-- What is sent on direct streams. -/
theorem unrevealed {as bs : List (Act ID β)} (hsame : List.Forall₂ (SameAct k) as bs)
    (hrun : (machine ID L).run (machine ID L).init as = some w) :
    ∃ w', (machine ID L).run (machine ID L).init bs = some w' ∧ w'.directs = w.directs := by
  obtain ⟨w', hrun', -, h⟩ := Machine.run_rel (M := machine ID L) (N := machine ID L)
    (R := fun w w₁ => Unnamed k w ∧ Low k w w₁)
    (fun ⟨hu, h⟩ hs hst => by
      obtain ⟨w₂, hst', h'⟩ := low_step hu h hs hst
      exact ⟨w₂, hst', unnamed_step hu hs.names_eq_false hst, h'⟩)
    hsame ⟨unnamed_init, rfl, rfl, rfl, rfl, fun _ _ => rfl⟩ hrun
  exact ⟨w', hrun', h.directs⟩

/-- **A stream is moved to a direct connection by its id.** What `handleDirectStream` does is
confined to the active stream its frame names. Streams of an id no frame names are as they would be
without the direct streams; and what is sent on these is the same whatever the session does with
such streams. -/
theorem takeover_by_id :
    (∀ (w w' : World ID L) i c, (machine ID L).Reach w →
      (machine ID L).step w (.direct i c) = some w' → Confined w w' i) ∧
    (∀ (k : ID) as w, (∀ a ∈ as, a.names k = false) →
      (machine ID L).run (machine ID L).init as = some w →
      ∃ w', (machine ID L).run (machine ID L).init (as.filter fun a => !a.isDirect) = some w' ∧
        w'.streams = w.streams ∧ ∀ v, v.id = k → w'.wraps v = w.wraps v) ∧
    ∀ (k : ID) as bs w, List.Forall₂ (SameAct k) as bs →
      (machine ID L).run (machine ID L).init as = some w →
      ∃ w', (machine ID L).run (machine ID L).init bs = some w' ∧ w'.directs = w.directs :=
  ⟨fun _ _ _ _ hr hst => confined_step (reach_named hr) hst,
    fun _ _ _ has hrun => untouched has hrun,
    fun _ _ _ _ hsame hrun => unrevealed hsame hrun⟩

/-- A ring of eight bytes. -/
abbrev ring := ResumeLib.ringLib ℕ 8

/-- Stream 5, to agent 1, has written three bytes, and stream 6 one. -/
def twoStreams : List (Act ℕ ℕ) :=
  [.wrapStream 5 1, .wrapStream 6 1, .app ⟨5, 0⟩ (.write [10, 11, 12]), .app ⟨6, 1⟩ (.write [20])]

/-- A direct stream of agent 2, with a frame that names `id`. -/
def dialsIn (id : ℕ) : List (Act ℕ ℕ) :=
  [.accept 2 (.resume id 0 0), .direct 0 .ok, .direct 0 .ok, .direct 0 .ok, .direct 0 .ok]

/-- Stream 5 is untouched by a direct stream that names stream 6. -/
theorem takeover_by_id_other :
    ∃ w w', (machine ℕ ring).run (machine ℕ ring).init (twoStreams ++ dialsIn 6) = some w ∧
      (w.directs 0).out = [20] ∧ (machine ℕ ring).run (machine ℕ ring).init twoStreams = some w' ∧
      ∀ v, v.id = 5 → w'.wraps v = w.wraps v := by
  obtain ⟨w, hrun, hout⟩ : ∃ w,
      (machine ℕ ring).run (machine ℕ ring).init (twoStreams ++ dialsIn 6) = some w ∧
        (w.directs 0).out = [20] := ⟨_, rfl, rfl⟩
  obtain ⟨w', hrun', -, hsame⟩ := takeover_by_id.2.1 5 _ w (by decide) hrun
  exact ⟨w, w', hrun, hout, hrun', hsame⟩

/-- **A foreign agent takes a stream over.** At the other end of stream 5 is agent 1. Agent 2 names
its id, gets the bytes in its ring, and becomes its inner. -/
theorem foreign_agent_takes_over :
    ∃ w, (machine ℕ ring).Reach w ∧ w.streams.lookup 5 = some ⟨5, 0⟩ ∧
      (w.wraps ⟨5, 0⟩).peer = 1 ∧ (w.directs 0).agent = 2 ∧ (w.directs 0).out = [10, 11, 12] ∧
      (w.wraps ⟨5, 0⟩).inner = .direct 0 :=
  ⟨_, Machine.reach_of_run (M := machine ℕ ring) (twoStreams ++ dialsIn 5) rfl,
    rfl, rfl, rfl, rfl, rfl⟩

end OutRelayAgent.Takeover
